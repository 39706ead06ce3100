import Rollout.CommandLine.Program

/-!
# The records on a disk

Which records a disk holds in which place, and what the steps of the program make of them. Only
a database that is released with other records than it was opened with changes them. Making
directories, reading files and waiting for a database do not.
-/

namespace Rollout

namespace Disk

variable {disk disk' disk'' : Disk} {path : String} {place other : Place} {store : Store}

/-- The records in a place: those of the database, and none if there is no database. -/
def records (disk : Disk) (place : Place) : Store :=
  match disk.node? place with
  | some (.database store _) => store
  | _ => .empty

/-- Two disks have the same records in every place. -/
def SameRecords (disk disk' : Disk) : Prop :=
  ∀ place, disk'.records place = disk.records place

/-- A disk has its own records. -/
theorem SameRecords.refl (disk : Disk) : SameRecords disk disk :=
  fun _ => rfl

private theorem SameRecords.trans (h : SameRecords disk disk') (h' : SameRecords disk' disk'') :
    SameRecords disk disk'' :=
  fun place => (h' place).trans (h place)

/-! ## Nodes -/

private theorem lookup_filter_ne {entries : List (Place × Node)} (h : other ≠ place) :
    (entries.filter (·.1 ≠ place)).lookup other = entries.lookup other := by
  induction entries with
  | nil => rfl
  | cons entry rest ih =>
    obtain ⟨first, node⟩ := entry
    by_cases hfirst : first = place
    · have hother : (other == first) = false := by simpa [hfirst] using h
      rw [List.filter_cons_of_neg (by simpa using hfirst), ih, List.lookup_cons, hother]
    · rw [List.filter_cons_of_pos (by simpa using hfirst), List.lookup_cons, List.lookup_cons, ih]

/-- A node that is put in a place is there, and all others are where they were. -/
theorem node?_put (disk : Disk) (node : Node) (h : place ≠ []) (other : Place) :
    (disk.put place node).node? other = if other = place then some node else disk.node? other := by
  unfold node? put
  by_cases hroot : other = []
  · subst hroot
    rw [if_neg (Ne.symm h)]
    rfl
  · have hempty : other.isEmpty = false := by simpa using hroot
    rw [hempty]
    by_cases hother : other = place
    · simp [hother]
    · have hne : (other == place) = false := by simpa using hother
      simp only [Bool.false_eq_true, if_false, if_neg hother, List.lookup_cons, hne,
        lookup_filter_ne hother]

private theorem ne_nil_of_node? (h : disk.node? place ≠ some .directory) : place ≠ [] := by
  rintro rfl
  exact h rfl

/-- Putting a database in a place changes the records there and nowhere else. -/
theorem records_put_database (h : disk.node? place ≠ some .directory) (held : Bool) :
    (disk.put place (.database store held)).records other =
      if other = place then store else disk.records other := by
  unfold records
  rw [node?_put disk _ (ne_nil_of_node? h)]
  by_cases hother : other = place
  · rw [if_pos hother, if_pos hother]
  · rw [if_neg hother, if_neg hother]

/-! ## Places -/

/-- A path still leads to its place as long as no directory goes. -/
theorem follow_of_directories
    (h : ∀ place, disk.node? place = some .directory → disk'.node? place = some .directory)
    {name : String} {target : Place} (hfollow : disk.follow place name = .ok target) :
    disk'.follow place name = .ok target := by
  unfold follow at hfollow ⊢
  split at hfollow
  · cases hfollow
  · next hdirectory =>
    rw [h place hdirectory]
    exact hfollow
  · cases hfollow

private theorem foldlM_follow_of_directories
    (h : ∀ place, disk.node? place = some .directory → disk'.node? place = some .directory)
    {names : List String} {target : Place} (hfollow : names.foldlM disk.follow place = .ok target) :
    names.foldlM disk'.follow place = .ok target := by
  induction names generalizing place with
  | nil => exact hfollow
  | cons name names ih =>
    rw [List.foldlM_cons] at hfollow ⊢
    cases hfirst : disk.follow place name with
    | error e =>
      rw [hfirst] at hfollow
      cases hfollow
    | ok next =>
      rw [hfirst] at hfollow
      rw [follow_of_directories h hfirst]
      exact ih hfollow

/-- Where a path leads that the disk does not refuse as a text. -/
theorem place_of_spelled {spelled : Path} (hnull : path.contains '\x00' = false)
    (hlimit : path.utf8ByteSize ≤ pathLimit) (hfilled : path.isEmpty = false)
    (hspelled : Path.ofText path = spelled) :
    disk.place path =
      spelled.names.foldlM disk.follow (if spelled.absolute then [] else disk.working) := by
  unfold Disk.place
  rw [hnull, if_neg Bool.false_ne_true, if_neg (Nat.not_lt.mpr hlimit), hfilled,
    if_neg Bool.false_ne_true, hspelled]

/-- A path still leads to its place on a disk that has lost no directory. -/
theorem place_of_directories
    (h : ∀ place, disk.node? place = some .directory → disk'.node? place = some .directory)
    (hworking : disk'.working = disk.working) (hplace : disk.place path = .ok place) :
    disk'.place path = .ok place := by
  unfold Disk.place at hplace ⊢
  split at hplace
  · cases hplace
  · next hnull =>
    rw [if_neg hnull]
    split at hplace
    · cases hplace
    · next hlong =>
      rw [if_neg hlong]
      split at hplace
      · cases hplace
      · next hempty =>
        rw [if_neg hempty]
        dsimp only at hplace ⊢
        rw [hworking]
        exact foldlM_follow_of_directories h hplace

/-- A path leads to the same place after a database has been put there. -/
theorem place_put_database (hplace : disk.place path = .ok place)
    (hnode : disk.node? place ≠ some .directory) (held : Bool) :
    (disk.put place (.database store held)).place path = .ok place := by
  have hdirectories (other : Place) (hother : disk.node? other = some .directory) :
      (disk.put place (.database store held)).node? other = some .directory := by
    have hne : other ≠ place := by
      rintro rfl
      exact hnode hother
    rw [node?_put disk _ (ne_nil_of_node? hnode), if_neg hne, hother]
  exact place_of_directories hdirectories rfl hplace

/-! ## Databases -/

/-- An attempt to open a database leaves the disk, or it holds the database in its place. -/
theorem openStore_cases (disk : Disk) (path : String) :
    (∃ e, disk.openStore path = (.error e, disk)) ∨
    ∃ place, disk.place path = .ok place ∧ disk.node? place ≠ some .directory ∧
      disk.openStore path =
        (.ok (disk.records place), disk.put place (.database (disk.records place) true)) := by
  unfold openStore
  cases hplace : disk.place path with
  | error e => exact Or.inl ⟨_, rfl⟩
  | ok place =>
    dsimp only
    split
    · exact Or.inl ⟨_, rfl⟩
    · cases hnode : disk.node? place with
      | none =>
        have hrecords : disk.records place = .empty := by rw [records, hnode]
        exact Or.inr ⟨place, rfl, by simp [hnode], by rw [hrecords]⟩
      | some node =>
        cases node with
        | directory => exact Or.inl ⟨_, rfl⟩
        | file content =>
          dsimp only
          split
          · have hrecords : disk.records place = .empty := by rw [records, hnode]
            exact Or.inr ⟨place, rfl, by simp [hnode], by rw [hrecords]⟩
          · exact Or.inl ⟨_, rfl⟩
        | database store held =>
          dsimp only
          split
          · exact Or.inl ⟨_, rfl⟩
          · have hrecords : disk.records place = store := by rw [records, hnode]
            exact Or.inr ⟨place, rfl, by simp [hnode], by rw [hrecords]⟩

/-- A database that was opened is released in its place. -/
theorem records_closeStore (hplace : disk.place path = .ok place)
    (hnode : disk.node? place ≠ some .directory) (opened store : Store) (other : Place) :
    ((disk.put place (.database opened true)).closeStore path store).records other =
      if other = place then store else disk.records other := by
  have hopened : (disk.put place (.database opened true)).node? place ≠ some .directory := by
    rw [node?_put disk _ (ne_nil_of_node? hnode), if_pos rfl]
    simp
  unfold closeStore
  rw [place_put_database hplace hnode]
  dsimp only
  rw [records_put_database hopened, records_put_database hnode]
  by_cases hother : other = place
  · rw [if_pos hother, if_pos hother]
  · rw [if_neg hother, if_neg hother, if_neg hother]

/-- A database that is released is opened again with the content that it was released with. -/
theorem openStore_closeStore {opened : Store} {held : Disk}
    (h : disk.openStore path = (.ok opened, held)) (store : Store) :
    ((held.closeStore path store).openStore path).1 = .ok store := by
  rcases disk.openStore_cases path with ⟨e, herror⟩ | ⟨place, hplace, hnode, hok⟩
  · rw [herror] at h
    cases h
  · rw [hok] at h
    obtain ⟨-, rfl⟩ := Prod.mk.inj h
    have hname : ¬((Path.ofText path).slash || !endsWithName (Path.ofText path)) = true := by
      intro hrefused
      simp only [openStore, hplace, if_pos hrefused] at hok
      cases hok
    have hopened : (disk.put place (.database (disk.records place) true)).node? place ≠
        some .directory := by
      rw [node?_put disk _ (ne_nil_of_node? hnode), if_pos rfl]
      simp
    have hplaced : (disk.put place (.database (disk.records place) true)).place path = .ok place :=
      place_put_database hplace hnode true
    simp only [closeStore, hplaced, openStore, place_put_database hplaced hopened, if_neg hname,
      node?_put _ _ (ne_nil_of_node? hnode), if_true, Bool.false_eq_true, if_false]

/-- A directory is made where there was nothing. -/
theorem sameRecords_makeDirectory (h : disk.makeDirectory path = .ok disk') :
    SameRecords disk disk' := by
  unfold makeDirectory at h
  cases hplace : disk.place path with
  | error e =>
    rw [hplace] at h
    cases h
  | ok place =>
    rw [hplace] at h
    by_cases hfree : (!endsWithName (Path.ofText path) || (disk.node? place).isSome) = true
    · simp only [bind, Except.bind, if_pos hfree] at h
      cases h
    · simp only [bind, Except.bind, if_neg hfree, pure, Except.pure] at h
      obtain rfl := Except.ok.inj h
      have hnone : disk.node? place = none := by
        simp only [Bool.or_eq_true, not_or, Option.not_isSome_iff_eq_none] at hfree
        exact hfree.2
      have hdirectory : disk.node? place ≠ some .directory := by simp [hnone]
      intro other
      unfold records
      rw [node?_put disk _ (ne_nil_of_node? hdirectory)]
      by_cases hother : other = place
      · rw [if_pos hother, hother, hnone]
      · rw [if_neg hother]

/-! ## Quiet actions -/

/-- An action changes no records on any disk. -/
def Quiet {α : Type} (action : StateM Disk α) : Prop :=
  ∀ disk, SameRecords disk (action disk).2

variable {α β : Type}

/-- Doing nothing is quiet. -/
theorem Quiet.pure (a : α) : Quiet (Pure.pure a) :=
  fun disk => .refl disk

/-- Quiet actions one after another are quiet. -/
theorem Quiet.bind {action : StateM Disk α} {next : α → StateM Disk β} (h : Quiet action)
    (hnext : ∀ a, Quiet (next a)) : Quiet (action >>= next) :=
  fun disk => (h disk).trans (hnext _ _)

variable (now : UInt64)

/-- Reading a file is quiet. -/
theorem quiet_readText (path : String) : Quiet ((host now).readText path) :=
  fun disk => .refl disk

/-- Looking for a directory is quiet. -/
theorem quiet_isDirectory (path : String) : Quiet ((host now).isDirectory path) :=
  fun disk => .refl disk

/-- Making one directory is quiet. -/
theorem quiet_makeDirectory (path : String) : Quiet ((host now).makeDirectory path) := by
  intro disk
  cases hmade : disk.makeDirectory path with
  | error e =>
    have hafter : ((host now).makeDirectory path disk).2 = disk := by
      simp only [host, bind, StateT.bind, get, getThe, MonadStateOf.get, StateT.get, pure, hmade]
      rfl
    rw [hafter]
    exact .refl disk
  | ok made =>
    have hafter : ((host now).makeDirectory path disk).2 = made := by
      simp only [host, bind, StateT.bind, get, getThe, MonadStateOf.get, StateT.get, pure, hmade]
      rfl
    rw [hafter]
    exact sameRecords_makeDirectory hmade

private theorem quiet_settle (path : String) (result : Except FileError Unit) :
    Quiet (makeAfter.settle (host now).isDirectory path result) := by
  cases result with
  | ok => exact .pure _
  | error e =>
    refine (quiet_isDirectory now path).bind fun present => ?_
    split
    · exact .pure _
    · exact .pure _

private theorem quiet_makeAfter {makeAbove : StateM Disk (Except FileError Unit)}
    (h : Quiet makeAbove) (path : String) :
    Quiet (makeAfter (host now).makeDirectory (host now).isDirectory path makeAbove) := by
  refine (quiet_makeDirectory now path).bind fun first => ?_
  split
  · refine h.bind fun above => ?_
    split
    · exact .pure _
    · exact (quiet_makeDirectory now path).bind fun second => quiet_settle now path second
  · exact quiet_settle now path _

private theorem quiet_makeParts (absolute : Bool) (parts : List String) :
    Quiet (makeParts (host now).makeDirectory (host now).isDirectory absolute parts) := by
  induction parts with
  | nil => exact .pure _
  | cons name above ih => exact quiet_makeAfter now ih _

/-- Making all the directories of a path is quiet. -/
theorem quiet_makeDirectories (path : String) :
    Quiet (makeDirectories (host now).makeDirectory (host now).isDirectory path) := by
  unfold makeDirectories
  split
  · exact .pure _
  · exact quiet_makeAfter now (quiet_makeParts now _ _) path

/-! ## Waiting for a database -/

/-- Of two actions the second works on the disk that the first leaves. -/
theorem run_bind (action : StateM Disk α) (next : α → StateM Disk β) (disk : Disk) :
    (action >>= next) disk = next (action disk).1 (action disk).2 :=
  rfl

/-- Asking for the time leaves the disk. -/
theorem run_now (disk : Disk) : (host now).now disk = (now, disk) :=
  rfl

private theorem run_openStore (path : String) (disk : Disk) :
    (host now).openStore path disk = disk.openStore path :=
  rfl

/-- On a disk that nobody else uses, waiting for a database comes to the same as a single attempt to
open it: whoever holds it does not let it go. -/
theorem openWhenFree_host (path : String) (wait elapsed : Nat) (disk : Disk) :
    openWhenFree ((host now).openStore path) (host now).pause wait elapsed disk =
      disk.openStore path := by
  induction hleft : wait - elapsed using Nat.strongRecOn generalizing elapsed with
  | _ left ih =>
    rw [openWhenFree]
    rw [run_bind, run_openStore]
    rcases disk.openStore_cases path with ⟨e, herror⟩ | ⟨place, -, -, hok⟩
    · rw [herror]
      cases e with
      | busy busyPath =>
        dsimp only
        split
        · next hwaits =>
          have hless : wait - (elapsed + retryDelay) < left := by
            simp only [retryDelay]
            omega
          exact (ih _ hless _ rfl).trans herror
        · rfl
      | _ => rfl
    · rw [hok]
      rfl

end Disk

end Rollout
