import Rollout.Pass
import Rollout.Proofs.StoredRecord
import Rollout.Proofs.TickCourse

/-!
# Runs of the driver

The life of one deployment between its creation and its end: passes of the driver, each of which
makes the tick that the phase calls for, and operator requests between them. Other things may
happen in between that leave the record alone. A run of the whole world is brought down to moves
of the stored record, about which invariants are proved.
-/

namespace Rollout

variable {Rest : Type}

/-! ## What a request has fixed -/

/-- The part of a record that never changes once the deployment exists. -/
structure Terms where
  id : String
  appId : String
  version : String
  previousVersion : String
  originalInstances : UInt32
  desiredWebInstances : UInt32

/-- The terms of a deployment. -/
def Deployment.terms (d : Deployment) : Terms where
  id := d.id
  appId := d.appId
  version := d.version
  previousVersion := d.previousVersion
  originalInstances := d.originalInstances
  desiredWebInstances := d.desiredWebInstances

namespace Deployment

variable {d d' : Deployment}

/-- The terms fix the number of instances that are replaced. -/
theorem original_of_terms (h : d'.terms = d.terms) : d'.originalInstances = d.originalInstances :=
  congrArg Terms.originalInstances h

/-- The terms fix the number of instances that are desired. -/
theorem desired_of_terms (h : d'.terms = d.terms) :
    d'.desiredWebInstances = d.desiredWebInstances :=
  congrArg Terms.desiredWebInstances h

/-- The terms fix both versions, and so that they differ. -/
theorem versions_of_terms (h : d'.terms = d.terms) (hversions : d.version ≠ d.previousVersion) :
    d'.version ≠ d'.previousVersion := by
  have hversion : d'.version = d.version := congrArg Terms.version h
  have hprevious : d'.previousVersion = d.previousVersion := congrArg Terms.previousVersion h
  rwa [hversion, hprevious]

end Deployment

/-- Writing a record leaves its terms. -/
@[simp] theorem Deployment.terms_nextRevision (d : Deployment) : d.nextRevision.terms = d.terms :=
  rfl

/-- A cancel request leaves the terms. -/
@[simp] theorem Operator.terms_canceled (d : Deployment) : (canceled d).terms = d.terms := by
  unfold canceled Deployment.requestCancel?
  split <;> rfl

/-- A promotion leaves the terms. -/
@[simp] theorem Operator.terms_promoted (d : Deployment) : (promoted d).terms = d.terms := by
  unfold promoted Deployment.promote?
  split <;> rfl

/-- A cancel request leaves the id. -/
theorem Operator.id_canceled (d : Deployment) : (canceled d).id = d.id :=
  congrArg Terms.id (terms_canceled d)

/-- A promotion leaves the id. -/
theorem Operator.id_promoted (d : Deployment) : (promoted d).id = d.id :=
  congrArg Terms.id (terms_promoted d)

/-- The mark of a failure leaves the terms. -/
@[simp] theorem Updater.terms_withFailure (u : Updater) (command : Command) (e : TickError)
    (d : Deployment) : (u.withFailure command e d).terms = d.terms := by
  rw [withFailure_eq]
  dsimp only
  split <;> rfl

/-- What a canary tick does after its step leaves the terms. -/
@[simp] theorem Updater.terms_afterCanaryStep (u : Updater) (c : Canary) (step : ScaleStep)
    (d : Deployment) : (u.afterCanaryStep c step d).terms = d.terms := by
  unfold afterCanaryStep
  split
  · rfl
  · split <;> rfl

/-- A scale step leaves the terms of its copy, also when it fails. -/
theorem ScaleCourse.terms_eq {World : Type} {policy : StepPolicy} {goal : ScaleGoal}
    {d : Deployment} {trace : List (Exchange World)} {outcome : Outcome ScaleStep}
    (h : ScaleCourse policy goal d trace outcome) : outcome.1.terms = d.terms := by
  obtain ⟨deploying, stable, heq⟩ := h.exists_eq
  rw [heq]
  rfl

/-- A tick leaves the terms of its copy, also when it fails. -/
theorem TickCourse.terms_eq {World : Type} {u : Updater} {d : Deployment} {command : Command}
    {trace : List (Exchange World)} {outcome : Outcome Unit}
    (h : TickCourse u d command trace outcome) : outcome.1.terms = d.terms := by
  cases h with
  | scaleFailed _ hstep | scaled _ hstep | unfinalized _ hstep | canaryFailed _ _ hstep =>
    exact hstep.terms_eq
  | finalized _ hstep => exact hstep.terms_eq
  | canaried _ _ hstep => exact (Updater.terms_afterCanaryStep ..).trans hstep.terms_eq
  | _ => rfl

/-- What a tick saves in the end has the terms of what it has read. -/
theorem Updater.terms_settled {World : Type} {u : Updater} {d stored : Deployment}
    {command : Command} {trace : List (Exchange World)} {outcome : Outcome Unit}
    (h : TickCourse u d command trace outcome) (hd : stored.terms = d.terms) :
    (u.settled command d stored outcome).terms = d.terms := by
  have hterms := h.terms_eq
  obtain ⟨d', result⟩ := outcome
  cases result with
  | error e => cases e <;> simp [settled, hd]
  | ok _ =>
    rw [settled_ok]
    split
    · exact hd
    · split
      · exact hterms
      · simp [hd]

/-! ## What is accepted -/

/-- An accepted request names two versions, and a canary that is not empty and not larger than
what is desired. -/
structure Request.Sound (request : Request) : Prop where
  /-- A version is not replaced by itself. -/
  versions : request.version ≠ request.previousVersion
  /-- A canary has at least one instance and no more than are desired. -/
  canary : ∀ total ∈ request.canaryTotalInstances,
    0 < total.toNat ∧ total.toNat ≤ request.desiredWebInstances.toNat

/-- A request without a fault is sound. -/
theorem Request.sound_of_fault? {request : Request} (h : request.fault? = none) :
    request.Sound := by
  unfold fault? at h
  split at h
  · cases h
  · split at h
    · cases h
    · split at h
      · cases h
      · next hversions =>
        refine ⟨hversions, fun total htotal => ?_⟩
        have htotal : request.canaryTotalInstances = some total := htotal
        simp only [canaryFault?, htotal] at h
        split at h
        · cases h
        · next hempty =>
          split at h
          · cases h
          · next hless =>
            have hzero : total.toNat ≠ 0 := toNat_ne.mp hempty
            exact ⟨by omega, UInt32.le_iff_toNat_le.mp (UInt32.not_lt.mp hless)⟩

/-- Only a sound request makes a deployment, and it makes the one that begins with it. -/
theorem Deployment.new_eq_ok {request : Request} {now : UInt64} {d : Deployment}
    (h : new request now = .ok d) : d = begin request now ∧ request.Sound := by
  unfold new at h
  split at h
  · cases h
  · next hfault => exact ⟨(Except.ok.inj h).symm, Request.sound_of_fault? hfault⟩

/-! ## Passes -/

namespace Updater

/-- The exchanges of a tick. -/
def tickTrace (u : Updater) (scheduler : Scheduler (Store × Rest)) (id : String)
    (command : Command) (w : Store × Rest) : List (Exchange (Store × Rest)) :=
  match read w.1 id with
  | .error _ => []
  | .ok d => (u.action command d).trace scheduler w

/-- What a pass does for the deployment under an id: the tick that its phase calls for. -/
def drive (u : Updater) (scheduler : Scheduler (Store × Rest)) (id : String) (w : Store × Rest) :
    Store × Rest :=
  match (read w.1 id).toOption.bind Deployment.command? with
  | none => w
  | some command => (u.tick scheduler id command w).2

/-- The exchanges of a pass for the deployment under an id. -/
def driveTrace (u : Updater) (scheduler : Scheduler (Store × Rest)) (id : String)
    (w : Store × Rest) : List (Exchange (Store × Rest)) :=
  match (read w.1 id).toOption.bind Deployment.command? with
  | none => []
  | some command => u.tickTrace scheduler id command w

/-- A record that the store holds is read as it is. -/
theorem read_eq_ok {store : Store} {id : String} {d : Deployment} (h : store.Holds id d) :
    read store id = .ok d := by
  rw [read, h.deployment?]

/-- A pass over a store with a single deployment is the tick that its phase calls for. -/
theorem pass_eq_drive (u : Updater) (scheduler : Scheduler (Store × Rest)) {id : String}
    {w : Store × Rest} {d : Deployment} (h : w.1.Holds id d)
    (hlist : w.1.deploymentList = .ok [d]) :
    (u.pass scheduler w).2 = u.drive scheduler id w := by
  unfold pass drive
  rw [hlist, read_eq_ok h]
  cases hcommand : d.command? with
  | none => simp [chosen, hcommand, ticks, Except.toOption]
  | some command => simp [chosen, hcommand, ticks, Except.toOption, h.own]

end Updater

/-- The calls of a scheduler leave the record under an id alone. -/
def Scheduler.Spares (scheduler : Scheduler (Store × Rest)) (id : String) : Prop :=
  ∀ c w, (scheduler c w).2.1.deployments.get? id = w.1.deployments.get? id

/-- The calls of a scheduler that spares a record leave it in the store. -/
theorem Scheduler.Makes.holds {scheduler : Scheduler (Store × Rest)} {id : String}
    (hspares : scheduler.Spares id) {w w' : Store × Rest} {trace : List (Exchange (Store × Rest))}
    (h : scheduler.Makes w trace w') {d : Deployment} (hd : w.1.Holds id d) : w'.1.Holds id d := by
  have hstep (c : Call) (w : Store × Rest) (_ : True) (hw : w.1.Holds id d) :
      (scheduler c w).2.1.Holds id d := hw.of_get?_eq (hspares c w)
  exact (h.keeps hstep (fun _ _ => trivial) hd).2

/-- A tick takes one of its courses from the stored record, over a world that the scheduler has
made, and then settles the record. -/
theorem Updater.tick_spec (u : Updater) {scheduler : Scheduler (Store × Rest)} {id : String}
    (hspares : scheduler.Spares id) (command : Command) {w : Store × Rest} {d : Deployment}
    (hd : w.1.Holds id d) :
    ∃ outcome made, TickCourse u d command (u.tickTrace scheduler id command w) outcome ∧
      scheduler.Makes w (u.tickTrace scheduler id command w) made ∧
      (u.tick scheduler id command w).2.1.Holds id (u.settled command d d outcome) ∧
      (u.tick scheduler id command w).2.1.instances = made.1.instances ∧
      (u.tick scheduler id command w).2.2 = made.2 := by
  have hruns := (u.action command d).runs_trace scheduler w
  have hmakes := scheduler.makes_trace (u.action command d) w
  have hcourse := tickCourse_of_runs hruns
  have hheld := hmakes.holds hspares hd
  have hid : ((u.action command d).run scheduler w).1.1.id = id :=
    (congrArg Terms.id hcourse.terms_eq).trans hd.own
  have htrace : u.tickTrace scheduler id command w = (u.action command d).trace scheduler w := by
    rw [tickTrace, read_eq_ok hd]
  refine ⟨_, _, htrace ▸ hcourse, htrace ▸ hmakes, ?_⟩
  simp only [tick, read_eq_ok hd]
  exact ⟨u.holds_settle command hheld hid, u.instances_settle command hheld hid, trivial⟩

/-! ## Moves of the world and of the record -/

/-- Something has happened that leaves the record under an id alone. -/
def Beside (id : String) (w w' : Store × Rest) : Prop :=
  w'.1.deployments.get? id = w.1.deployments.get? id

/-- What may happen next in the world of a deployment, with the exchanges of it: a pass of the
driver at some time, an operator request, or something aside. -/
inductive Move (scheduler : Scheduler (Store × Rest)) (policy : StepPolicy) (id : String)
    (aside : Store × Rest → Store × Rest → Prop) :
    Store × Rest → List (Exchange (Store × Rest)) → Store × Rest → Prop where
  | pass (now : UInt64) (w : Store × Rest) :
    Move scheduler policy id aside w
      (Updater.driveTrace { policy := policy, now := now } scheduler id w)
      (Updater.drive { policy := policy, now := now } scheduler id w)
  | cancelRequest (w : Store × Rest) :
    Move scheduler policy id aside w [] ((Operator.requestCancel w.1 id).2, w.2)
  | promotion (w : Store × Rest) :
    Move scheduler policy id aside w [] ((Operator.promote w.1 id).2, w.2)
  | aside {w w' : Store × Rest} (h : aside w w') : Move scheduler policy id aside w [] w'

/-- Moves one after another, with all their exchanges. -/
inductive Run (scheduler : Scheduler (Store × Rest)) (policy : StepPolicy) (id : String)
    (aside : Store × Rest → Store × Rest → Prop) :
    Store × Rest → List (Exchange (Store × Rest)) → Store × Rest → Prop where
  | start (w : Store × Rest) : Run scheduler policy id aside w [] w
  | move {w w' w'' : Store × Rest} {trace next : List (Exchange (Store × Rest))}
    (hrun : Run scheduler policy id aside w trace w')
    (hmove : Move scheduler policy id aside w' next w'') :
    Run scheduler policy id aside w (trace ++ next) w''

/-- What a move makes of the record. -/
inductive RecordMove {World : Type} (policy : StepPolicy) (d : Deployment) :
    List (Exchange World) → Deployment → Prop where
  | idle : RecordMove policy d [] d
  | tick (now : UInt64) {command : Command} {trace : List (Exchange World)}
    {outcome : Outcome Unit} (hcommand : d.command? = some command)
    (hcourse : TickCourse { policy := policy, now := now } d command trace outcome) :
    RecordMove policy d trace
      (Updater.settled { policy := policy, now := now } command d d outcome)
  | cancelRequest : RecordMove policy d [] (Operator.canceled d)
  | promotion : RecordMove policy d [] (Operator.promoted d)

/-- Every move leaves the terms. -/
theorem RecordMove.terms_eq {World : Type} {policy : StepPolicy} {d d' : Deployment}
    {trace : List (Exchange World)} (h : RecordMove policy d trace d') : d'.terms = d.terms := by
  cases h with
  | idle => rfl
  | tick now hcommand hcourse => exact Updater.terms_settled hcourse rfl
  | cancelRequest => exact Operator.terms_canceled d
  | promotion => exact Operator.terms_promoted d

variable {scheduler : Scheduler (Store × Rest)} {policy : StepPolicy} {id : String}
  {aside : Store × Rest → Store × Rest → Prop} {w w' : Store × Rest} {d : Deployment}
  {trace : List (Exchange (Store × Rest))}

/-- A pass does nothing for the deployment, or makes a tick that its phase calls for. -/
theorem Updater.drive_spec (u : Updater) (hspares : scheduler.Spares id) (hd : w.1.Holds id d) :
    (d.command? = none ∧ u.driveTrace scheduler id w = [] ∧ u.drive scheduler id w = w) ∨
    ∃ command outcome made, d.command? = some command ∧
      TickCourse u d command (u.driveTrace scheduler id w) outcome ∧
      scheduler.Makes w (u.driveTrace scheduler id w) made ∧
      (u.drive scheduler id w).1.Holds id (u.settled command d d outcome) ∧
      (u.drive scheduler id w).1.instances = made.1.instances ∧
      (u.drive scheduler id w).2 = made.2 := by
  have hread : (read w.1 id).toOption.bind Deployment.command? = d.command? := by
    rw [read_eq_ok hd]
    rfl
  unfold driveTrace drive
  rw [hread]
  cases hcommand : d.command? with
  | none => exact Or.inl ⟨rfl, rfl, rfl⟩
  | some command =>
    obtain ⟨outcome, made, hspec⟩ := u.tick_spec hspares command hd
    exact Or.inr ⟨command, outcome, made, rfl, hspec⟩

/-- A move of the world is a move of the record. -/
theorem Move.recordMove (hspares : scheduler.Spares id)
    (haside : ∀ w w', aside w w' → Beside id w w')
    (h : Move scheduler policy id aside w trace w') (hd : w.1.Holds id d) :
    ∃ d', w'.1.Holds id d' ∧ RecordMove policy d trace d' := by
  cases h with
  | pass now w =>
    rcases Updater.drive_spec { policy := policy, now := now } hspares hd with
      ⟨-, htrace, hdrive⟩ | ⟨command, outcome, made, hcommand, hcourse, -, hheld, -⟩
    · rw [htrace, hdrive]
      exact ⟨d, hd, .idle⟩
    · exact ⟨_, hheld, .tick now hcommand hcourse⟩
  | cancelRequest =>
    refine ⟨_, ?_, .cancelRequest⟩
    rw [Operator.requestCancel_eq_write hd]
    exact w.1.holds_write_of_id ((Operator.id_canceled d).trans hd.own)
  | promotion =>
    refine ⟨_, ?_, .promotion⟩
    rw [Operator.promote_eq_write hd]
    exact w.1.holds_write_of_id ((Operator.id_promoted d).trans hd.own)
  | aside h => exact ⟨d, hd.of_get?_eq (haside _ _ h), .idle⟩

/-- What every move of the record keeps holds at the end of a run. -/
theorem Run.keeps (hspares : scheduler.Spares id)
    (haside : ∀ w w', aside w w' → Beside id w w')
    {kept : Deployment → Prop}
    (hkeeps : ∀ d d' (trace : List (Exchange (Store × Rest))), kept d →
      RecordMove policy d trace d' → kept d')
    (h : Run scheduler policy id aside w trace w') (hd : w.1.Holds id d) (hkept : kept d) :
    ∃ d', w'.1.Holds id d' ∧ kept d' ∧ d'.terms = d.terms := by
  induction h with
  | start => exact ⟨d, hd, hkept, rfl⟩
  | move hrun hmove ih =>
    obtain ⟨d₁, hd₁, hkept₁, hterms₁⟩ := ih
    obtain ⟨d₂, hd₂, hrecord⟩ := hmove.recordMove hspares haside hd₁
    exact ⟨d₂, hd₂, hkeeps _ _ _ hkept₁ hrecord, hrecord.terms_eq.trans hterms₁⟩

end Rollout
