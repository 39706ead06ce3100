import Rollout.Proofs.DatabaseFile
import Rollout.Proofs.FailedOperation

/-!
# What failed commands leave on the disk

A command that fails for any other reason than its operation changes no records, and an operation
that fails leaves on the disk what it leaves in the store. The main result says for every command
line and every disk when a failure has changed records, and how.
-/

namespace Rollout

namespace CommandLine

variable {disk : Disk} {config : Config} {invocation : Invocation}

/-- The operation that a subcommand comes to, if it is one on an open store. A request with a fault
comes to none. -/
def Subcommand.operation? (now : UInt64) : Subcommand → Option Operation
  | .run => none
  | .create request => (Deployment.new request now).toOption.map .create
  | .tick id command => some (.tick id command)
  | .cancel id => some (.cancel id)
  | .promote id => some (.promote id)
  | .list => some .list

private theorem quiet_loadConfig (now : UInt64) (invocation : Invocation) :
    Disk.Quiet (loadConfig (Disk.host now) invocation) := by
  unfold loadConfig
  dsimp only
  split
  · exact .bind (.pure _) fun loaded => .pure _
  · refine .bind (Disk.quiet_readText now _) fun text => ?_
    split
    · exact .bind (.pure _) fun loaded => .pure _
    · exact .bind (.pure _) fun loaded => .pure _

private theorem quiet_report (now : UInt64) (logJson : Bool) (events : List LogEvent) :
    Disk.Quiet (report (Disk.host now) logJson events) := by
  unfold report
  induction events with
  | nil => exact .pure _
  | cons event events ih => exact Disk.Quiet.bind (fun disk => .refl disk) fun _ => ih

private theorem openStore_host (now : UInt64) (path : String) (disk : Disk) :
    openStore (Disk.host now) path disk =
      ((disk.openStore path).1.mapError fun e =>
        ⟨"opening state store at " ++ path, some e.message⟩, (disk.openStore path).2) := by
  unfold openStore
  rw [Disk.run_bind, Disk.openWhenFree_host]
  cases (disk.openStore path).1 with
  | error e => rfl
  | ok store => rfl

private theorem code_ofResult {result : Except Failure Json} (h : (Exit.ofResult result).code = 1) :
    ∃ f, result = .error f := by
  cases result with
  | error f => exact ⟨f, rfl⟩
  | ok json => cases h

/-- What a command may have done to the records on a disk when it ends with a failure: nothing, or
in one place what its operation leaves there. -/
def Spoiled (op? : Option Operation) (disk after : Disk) : Prop :=
  ∀ place, after.records place = disk.records place ∨
    ∃ op, op? = some op ∧ op.Residue (disk.records place) (after.records place)

private theorem Spoiled.of_same {op? : Option Operation} {after : Disk}
    (h : disk.SameRecords after) : Spoiled op? disk after :=
  fun place => Or.inl (h place)

/-- How a command that comes to an operation ends: a failure leaves no more than the operation can
leave, and what a failed operation alone can leave is never left without a failure. -/
structure Ending (op? : Option Operation) (disk : Disk) (ended : Exit × Disk) : Prop where
  /-- A failure leaves no more than the operation can leave. -/
  spoiled : ended.1.code = 1 → Spoiled op? disk ended.2
  /-- What only a failed operation leaves is a sign of failure. -/
  failed : ∀ op place, op? = some op →
    op.Residue (disk.records place) (ended.2.records place) → ended.1.code = 1

namespace Ending

variable {op? : Option Operation} {disk' : Disk} {ended : Exit × Disk}

/-- A command that has changed no records ends in order, with a failure or without. -/
theorem of_same (h : disk.SameRecords ended.2) : Ending op? disk ended where
  spoiled _ := .of_same h
  failed _ place _ hresidue := absurd (h place) hresidue.ne

/-- An ending stays one after steps that have changed no records. -/
theorem after_same (h : disk.SameRecords disk') (hending : Ending op? disk' ended) :
    Ending op? disk ended where
  spoiled hcode place := by
    rw [← h place]
    exact hending.spoiled hcode place
  failed op place hop hresidue := by
    rw [← h place] at hresidue
    exact hending.failed op place hop hresidue

end Ending

/-- An operation ends as it does on the store that is opened, which is released with what the
operation leaves. -/
theorem operate_of_opened (now : UInt64) (logJson : Bool) (op : Operation) {store : Store}
    {opened : Disk} (h : disk.openStore config.databasePath = (.ok store, opened)) :
    (operate (Disk.host now) logJson config op disk).1 =
        .ofResult (op.perform config now store).result ∧
      (opened.closeStore config.databasePath (op.perform config now store).store).SameRecords
        (operate (Disk.host now) logJson config op disk).2 := by
  unfold operate
  rw [Disk.run_bind, openStore_host, h]
  constructor
  · rfl
  · exact quiet_report now logJson (op.perform config now store).events _

/-- An operation that is carried out comes to an ending of it. -/
theorem ending_operate (now : UInt64) (logJson : Bool) (config : Config) (op : Operation)
    (disk : Disk) : Ending (some op) disk (operate (Disk.host now) logJson config op disk) := by
  rcases disk.openStore_cases config.databasePath with ⟨e, herror⟩ | ⟨place, hplace, hnode, hok⟩
  · apply Ending.of_same
    unfold operate
    rw [Disk.run_bind, openStore_host, herror]
    exact .refl disk
  · obtain ⟨hexit, hafter⟩ := operate_of_opened now logJson op hok
    have hrecords (other : Place) :
        (operate (Disk.host now) logJson config op disk).2.records other =
          if other = place then (op.perform config now (disk.records place)).store
          else disk.records other := by
      rw [hafter, Disk.records_closeStore hplace hnode]
    constructor
    · intro hcode other
      rw [hrecords]
      by_cases hother : other = place
      · rw [if_pos hother, hother]
        rw [hexit] at hcode
        rcases Operation.failed_leaves (code_ofResult hcode) with hsame | hresidue
        · exact Or.inl hsame
        · exact Or.inr ⟨op, rfl, hresidue⟩
      · rw [if_neg hother]
        exact Or.inl rfl
    · rintro _ other ⟨⟩ hresidue
      rw [hrecords] at hresidue
      by_cases hother : other = place
      · rw [hother, if_pos rfl] at hresidue
        obtain ⟨f, hf⟩ := (hresidue.fails config now).1
        rw [hexit, hf]
        rfl
      · rw [if_neg hother] at hresidue
        exact absurd rfl hresidue.ne

/-- The daemon fails only when it cannot open its store, and changes nothing then. -/
theorem ending_daemon (now : UInt64) (logJson : Bool) (config : Config) (disk : Disk) :
    Ending none disk (daemon (Disk.host now) logJson config disk) := by
  unfold daemon
  rw [Disk.run_bind, openStore_host]
  rcases disk.openStore_cases config.databasePath with ⟨e, herror⟩ | ⟨place, -, -, hok⟩
  · rw [herror]
    exact .of_same (.refl disk)
  · rw [hok]
    constructor
    · rintro ⟨⟩
    · rintro op place ⟨⟩

/-- Every subcommand comes to an ending of its operation. -/
theorem ending_dispatch (now : UInt64) (logJson : Bool) (config : Config)
    (subcommand : Subcommand) (disk : Disk) :
    Ending (subcommand.operation? now) disk
      (dispatch (Disk.host now) logJson config subcommand disk) := by
  cases subcommand with
  | run => exact ending_daemon now logJson config disk
  | create request =>
    cases hnew : Deployment.new request now with
    | error fault =>
      apply Ending.of_same
      simp only [dispatch, Disk.run_bind, Disk.run_now, hnew]
      exact .refl disk
    | ok d =>
      have hop : (Subcommand.create request).operation? now = some (.create d) := by
        simp only [Subcommand.operation?, hnew]
        rfl
      simp only [dispatch, Disk.run_bind, Disk.run_now, hnew, hop]
      exact ending_operate now logJson config (.create d) disk
  | tick | cancel | promote | list => exact ending_operate now logJson config _ disk

/-- Every command line comes to an ending of its operation. -/
theorem ending_execute (now : UInt64) (invocation : Invocation) (disk : Disk) :
    Ending (invocation.subcommand.operation? now) disk
      (execute (Disk.host now) invocation disk) := by
  unfold execute
  rw [Disk.run_bind]
  apply Ending.after_same (quiet_loadConfig now invocation disk)
  obtain ⟨loaded, disk'⟩ := loadConfig (Disk.host now) invocation disk
  cases loaded with
  | error f => exact .of_same (.refl disk')
  | ok config =>
    dsimp only
    rw [Disk.run_bind]
    apply Ending.after_same (Disk.quiet_makeDirectories now config.store.dataDir disk')
    obtain ⟨made, disk''⟩ := makeDirectories (Disk.host now).makeDirectory
      (Disk.host now).isDirectory config.store.dataDir disk'
    cases made with
    | error e => exact .of_same (.refl disk'')
    | ok => exact ending_dispatch now invocation.logJson config invocation.subcommand disk''

/-- A program that fails has changed the records in a place exactly if it got as far as an operation
that left one of the three residues there. -/
theorem program_failed_iff (now : UInt64) (args : List String) (disk : Disk) (place : Place) :
    ((program (Disk.host now) args disk).1.code = 1 ∧
        (program (Disk.host now) args disk).2.records place ≠ disk.records place) ↔
      ∃ invocation op, parse args = .ok invocation ∧
        invocation.subcommand.operation? now = some op ∧
        op.Residue (disk.records place) ((program (Disk.host now) args disk).2.records place) := by
  unfold program
  cases parse args with
  | error stop =>
    constructor
    · rintro ⟨hcode, -⟩
      cases stop with
      | help => cases hcode
      | usage detail => cases hcode
    · rintro ⟨invocation, op, ⟨⟩, -⟩
  | ok invocation =>
    have hending := ending_execute now invocation disk
    constructor
    · rintro ⟨hcode, hne⟩
      obtain ⟨op, hop, hresidue⟩ := (hending.spoiled hcode place).resolve_left hne
      exact ⟨invocation, op, rfl, hop, hresidue⟩
    · rintro ⟨_, op, ⟨⟩, hop, hresidue⟩
      exact ⟨hending.failed op place hop hresidue, hresidue.ne⟩

/-- **What a failure changes.** A command that ends with a failure, and an operator request that is
answered with an error, leave every deployment and every instance as it was, with three exceptions:
a cancel request that a finished deployment refuses and a promotion that a deployment refuses which
is not paused write the record with the next revision, and a deployment that is to be created stays
if the instances of its previous version cannot be read. These always fail and always change the
store. -/
theorem failure_changes_iff (now : UInt64) (args : List String) (disk : Disk) (place : Place)
    (store : Store) (id : String) :
    (((program (Disk.host now) args disk).1.code = 1 ∧
        (program (Disk.host now) args disk).2.records place ≠ disk.records place) ↔
      ∃ invocation op, parse args = .ok invocation ∧
        invocation.subcommand.operation? now = some op ∧
        op.Residue (disk.records place)
          ((program (Disk.host now) args disk).2.records place)) ∧
    (((∃ e, (Operator.requestCancel store id).1 = .error e) ∧
        (Operator.requestCancel store id).2 ≠ store) ↔
      (Operation.cancel id).Residue store (Operator.requestCancel store id).2) ∧
    (((∃ e, (Operator.promote store id).1 = .error e) ∧
        (Operator.promote store id).2 ≠ store) ↔
      (Operation.promote id).Residue store (Operator.promote store id).2) := by
  refine ⟨program_failed_iff now args disk place, ?_, ?_⟩
  · rw [← Operation.ofRequest_failed_iff]
    exact Operation.fails_and_changes_iff {} now store (.cancel id)
  · rw [← Operation.ofRequest_failed_iff]
    exact Operation.fails_and_changes_iff {} now store (.promote id)

/-- A disk with a database in the data directory. -/
def shelf (store : Store) : Disk :=
  ⟨[(["data"], .directory), (["data", "capstan.redb"], .database store false)], []⟩

private theorem place_shelf (store : Store) :
    (shelf store).place "/data/capstan.redb" = .ok ["data", "capstan.redb"] := by
  have hspelled : Path.ofText "/data/capstan.redb" = ⟨true, ["data", "capstan.redb"], false⟩ := by
    decide +kernel
  rw [Disk.place_of_spelled (by simp) (by decide +kernel) (by decide +kernel) hspelled]
  rfl

private theorem place_shelf_directory (store : Store) :
    (shelf store).place "/data" = .ok ["data"] := by
  have hspelled : Path.ofText "/data" = ⟨true, ["data"], false⟩ := by decide +kernel
  rw [Disk.place_of_spelled (by simp) (by decide +kernel) (by decide +kernel) hspelled]
  rfl

/-- The data directory is there already. -/
theorem makeDirectories_shelf (now : UInt64) (store : Store) :
    makeDirectories (Disk.host now).makeDirectory (Disk.host now).isDirectory "/data"
      (shelf store) = (.ok (), shelf store) := by
  have hmake : (Disk.host now).makeDirectory "/data" (shelf store) =
      (.error .alreadyExists, shelf store) := by
    have hmade : (shelf store).makeDirectory "/data" = .error .alreadyExists := by
      unfold Disk.makeDirectory
      rw [place_shelf_directory]
      rfl
    simp only [Disk.host, bind, StateT.bind, get, getThe, MonadStateOf.get, StateT.get, pure, hmade]
    rfl
  have hpresent : (Disk.host now).isDirectory "/data" (shelf store) = (true, shelf store) := by
    have hfound : (shelf store).isDirectory "/data" = true := by
      unfold Disk.isDirectory Disk.find
      rw [place_shelf_directory]
      rfl
    simp only [Disk.host, bind, StateT.bind, get, getThe, MonadStateOf.get, StateT.get, pure,
      hfound]
    rfl
  unfold makeDirectories
  rw [if_neg (by decide +kernel)]
  simp only [makeAfter, makeAfter.settle, Disk.run_bind, hmake, hpresent]
  rfl

private theorem openStore_shelf (store : Store) :
    (shelf store).openStore (Config.databasePath { store := ⟨"/data"⟩ }) =
      (.ok store, (shelf store).put ["data", "capstan.redb"] (.database store true)) := by
  have hpath : Config.databasePath { store := ⟨"/data"⟩ } = "/data/capstan.redb" := by
    decide +kernel
  unfold Disk.openStore
  rw [hpath, place_shelf]
  dsimp only
  rw [if_neg (by decide +kernel)]
  rfl

/-- A cancel request on the command line ends as it does on the records of that disk, which become
those that it leaves. -/
theorem program_shelf (now : UInt64) (store : Store) :
    let performed := (Operation.cancel "web").perform { store := ⟨"/data"⟩ } now store
    let ended := program (Disk.host now) ["--data-dir", "/data", "cancel", "web"] (shelf store)
    ended.1 = .ofResult performed.result ∧
      ended.2.records ["data", "capstan.redb"] = performed.store := by
  intro performed ended
  have hparse : parse ["--data-dir", "/data", "cancel", "web"] =
      .ok ⟨none, some "/data", false, .cancel "web"⟩ := by decide +kernel
  have hload : loadConfig (Disk.host now) ⟨none, some "/data", false, .cancel "web"⟩ (shelf store) =
      (.ok { store := ⟨"/data"⟩ }, shelf store) := rfl
  have hended : ended = operate (Disk.host now) false { store := ⟨"/data"⟩ } (.cancel "web")
      (shelf store) := by
    simp only [ended, program, hparse, execute, Disk.run_bind, hload, makeDirectories_shelf]
    rfl
  obtain ⟨hexit, hafter⟩ := operate_of_opened now false (.cancel "web") (openStore_shelf store)
  have hnode : (shelf store).node? ["data", "capstan.redb"] = some (.database store false) := rfl
  rw [hended]
  constructor
  · exact hexit
  · rw [hafter]
    have hplace : (shelf store).place (Config.databasePath { store := ⟨"/data"⟩ }) =
        .ok ["data", "capstan.redb"] := place_shelf store
    rw [Disk.records_closeStore hplace (by simp [hnode]), if_pos rfl]

/-- A refused cancel request ends the program with a failure, and the record has another revision
than before. -/
theorem refused_cancel_rewrites :
    let canceled := (Deployment.begin ⟨"web", "web", "2", "1", 1, 1, none⟩ 0).setPhase .canceled
    let disk := shelf (Store.empty.overwrite "web" canceled)
    let ended := program (Disk.host 5) ["--data-dir", "/data", "cancel", "web"] disk
    ended.1.code = 1 ∧ ended.2.records ["data", "capstan.redb"] ≠
      disk.records ["data", "capstan.redb"] := by
  intro canceled disk ended
  have hread := Store.empty.deployment_overwrite "web" canceled
  have hresidue := Operation.Residue.canceled hread rfl rfl
  obtain ⟨⟨f, hfails⟩, hleft⟩ := hresidue.fails { store := ⟨"/data"⟩ } 5
  obtain ⟨hexit, hrecords⟩ := program_shelf 5 (Store.empty.overwrite "web" canceled)
  constructor
  · rw [hexit, hfails]
    rfl
  · rw [hrecords, hleft]
    exact hresidue.ne

end CommandLine

end Rollout
