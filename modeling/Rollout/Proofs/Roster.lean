import Mathlib.Data.List.Induction
import Rollout.Proofs.InstanceOrder

/-!
# Rosters

A local scheduler behaves as if it had, for each version of an application, a plain list of
instances ordered by index. Growing appends fresh instances after the last one, shrinking drops
instances from the end, and marking changes instances in their places. What can be relied on is
read off these lists.
-/

namespace Rollout

open Instance (Plain indexLimit)

/-! ## Lists of instances -/

/-- What can be asked of a local scheduler about a version. -/
inductive RosterOp where
  | setCount (count : UInt32)
  | query
  | remove
  | instanceCount
  | markReady
  | markUnhealthy (index : UInt32)
  | markCrashed (index : UInt32)
  deriving DecidableEq, Repr

/-- What a local scheduler answers. -/
inductive RosterReply where
  | done
  | health (running healthy : Nat)
  | removed (count : Nat)
  | counted (count : Nat)
  /-- So many instances were made ready. -/
  | readied (count : Nat)
  | found (present : Bool)
  | failed (e : SchedulerError)
  deriving DecidableEq, Repr

namespace Roster

/-- The index after the last instance of a list. -/
def free (roster : List Instance) : Nat :=
  match roster.getLast? with
  | none => 0
  | some last => last.index.toNat + 1

/-- Fresh instances with consecutive indexes. -/
def additions (s : LocalScheduler) (subject : String × String) (first added : Nat) :
    List Instance :=
  (List.range' first added).map fun n => s.fresh subject.1 subject.2 (UInt32.ofNat n)

/-- The instance with a given index is changed at a given time. -/
def change (index : UInt32) (now : UInt64) (f : Instance → Instance) (roster : List Instance) :
    List Instance :=
  roster.map fun i => if i.index = index then { f i with updatedAt := now } else i

/-! ### The free index -/

variable {subject : String × String} {roster : List Instance} {i j : Instance}

/-- The index that the scheduler goes on with. -/
theorem nextIndex_eq (roster : List Instance) :
    LocalScheduler.nextIndex roster = UInt32.ofNat (free roster) := by
  unfold LocalScheduler.nextIndex free
  cases hlast : roster.getLast? with
  | none => rfl
  | some last =>
    show last.index + 1 = UInt32.ofNat (last.index.toNat + 1)
    rw [UInt32.ofNat_add, UInt32.ofNat_toNat]
    rfl

/-- The free index comes after that of the last instance. -/
@[simp] theorem free_append (init : List Instance) (last : Instance) :
    free (init ++ [last]) = last.index.toNat + 1 := by
  simp [free]

/-- All indexes of an ordered list lie before the free one. -/
theorem lt_free (h : Ordered roster) (hi : i ∈ roster) : i.index.toNat < free roster := by
  rcases List.eq_nil_or_concat roster with rfl | ⟨init, last, rfl⟩
  · simp at hi
  · rw [List.concat_eq_append] at h hi ⊢
    rw [free_append]
    rcases List.mem_append.mp hi with hi | hi
    · have hlt := (List.pairwise_append.mp h).2.2 i hi last (by simp)
      exact Nat.lt_succ_of_lt (UInt32.lt_iff_toNat_lt.mp hlt)
    · rw [List.mem_singleton.mp hi]
      exact Nat.lt_succ_self _

private theorem toNat_ofNat_of_lt {n : Nat} (h : n < indexLimit) : (UInt32.ofNat n).toNat = n := by
  have hsize : indexLimit < UInt32.size := by decide
  exact UInt32.toNat_ofNat_of_lt' (Nat.lt_trans h hsize)

/-- What is missing to a count. -/
theorem toNat_sub_ofNat {count : UInt32} {n : Nat} (h : n ≤ count.toNat) :
    (count - UInt32.ofNat n).toNat = count.toNat - n := by
  have hn : (UInt32.ofNat n).toNat = n :=
    UInt32.toNat_ofNat_of_lt' (Nat.lt_of_le_of_lt h count.toNat_lt_size)
  have hle : UInt32.ofNat n ≤ count := by rwa [UInt32.le_iff_toNat_le, hn]
  rw [UInt32.toNat_sub_of_le _ _ hle, hn]

/-- Every addition is a fresh instance with an index in the range. -/
theorem mem_additions {s : LocalScheduler} {first added : Nat}
    (hj : j ∈ additions s subject first added) :
    ∃ n, n < first + added ∧ j = s.fresh subject.1 subject.2 (UInt32.ofNat n) := by
  obtain ⟨n, hn, rfl⟩ := List.mem_map.mp hj
  exact ⟨n, (List.mem_range'_1.mp hn).2, rfl⟩

/-- An ordered list has no more instances than there are indexes before the free one. -/
theorem length_le_free (h : Ordered roster) : roster.length ≤ free roster := by
  induction roster using List.reverseRecOn with
  | nil => exact Nat.zero_le _
  | append_singleton init last ih =>
    obtain ⟨hinit, -, hlast⟩ := List.pairwise_append.mp h
    have hlength := ih hinit
    have hbefore : free init ≤ last.index.toNat := by
      unfold free
      cases hprevious : init.getLast? with
      | none => exact Nat.zero_le _
      | some previous =>
        have hlt := hlast previous (List.mem_of_getLast? hprevious) last (by simp)
        exact UInt32.lt_iff_toNat_lt.mp hlt
    rw [List.length_append, List.length_singleton, free_append]
    omega

/-- One more addition comes last. -/
theorem additions_succ (s : LocalScheduler) (subject : String × String) (first added : Nat) :
    additions s subject first (added + 1) =
      additions s subject first added ++
        [s.fresh subject.1 subject.2 (UInt32.ofNat (first + added))] := by
  rw [additions, List.range'_concat, List.map_append, Nat.one_mul]
  rfl

private theorem filter_last {init : List Instance} {last : Instance}
    (h : Ordered (init ++ [last])) :
    (init ++ [last]).filter (·.index ≠ last.index) = init := by
  have hinit : init.filter (·.index ≠ last.index) = init := by
    refine List.filter_eq_self.mpr fun i hi => decide_eq_true ?_
    exact UInt32.ne_of_lt ((List.pairwise_append.mp h).2.2 i hi last (by simp))
  rw [List.filter_append, hinit]
  simp

end Roster

/-- What is answered for a list of instances, and the list that is left. -/
def RosterOp.apply (s : LocalScheduler) (subject : String × String) (roster : List Instance) :
    RosterOp → RosterReply × List Instance
  | .setCount count =>
    (.done, roster.take count.toNat ++
      Roster.additions s subject (Roster.free roster) (count.toNat - roster.length))
  | .query =>
    (.health (roster.countP Instance.isRunning) (roster.countP Instance.isHealthy), roster)
  | .remove => (.removed roster.length, [])
  | .instanceCount => (.counted roster.length, roster)
  | .markReady =>
    (.readied (roster.countP (!·.isHealthy)), roster.map fun i =>
      if i.isHealthy then i
      else { i with status := .running, health := .healthy, updatedAt := s.now })
  | .markUnhealthy index =>
    (.found (roster.any (·.index = index)),
      Roster.change index s.now (fun i => { i with health := .unhealthy }) roster)
  | .markCrashed index =>
    (.found (roster.any (·.index = index)),
      Roster.change index s.now (fun i => { i with status := .crashed, health := .unknown }) roster)

/-- No index reaches the limit. -/
def RosterOp.Fits (roster : List Instance) : RosterOp → Prop
  | .setCount count => Roster.free roster + (count.toNat - roster.length) ≤ indexLimit
  | _ => True

/-- Whether the indexes fit is seen from the length of the list and its last index. -/
instance (roster : List Instance) : (op : RosterOp) → Decidable (op.Fits roster)
  | .setCount count => inferInstanceAs (Decidable
      (Roster.free roster + (count.toNat - roster.length) ≤ indexLimit))
  | .query | .remove | .instanceCount | .markReady | .markUnhealthy _ | .markCrashed _ =>
    .isTrue trivial

/-- Something that is asked about a version, of a scheduler with its settings and its clock. -/
structure Errand where
  /-- The settings and the clock. -/
  scheduler : LocalScheduler
  /-- The application and the version. -/
  subject : String × String
  /-- What is asked. -/
  op : RosterOp

/-- A list of instances for each version. -/
abbrev Rosters : Type :=
  String × String → List Instance

namespace Rosters

/-- An errand concerns the list of one version. -/
def step (rosters : Rosters) (e : Errand) : RosterReply × Rosters :=
  let answered := e.op.apply e.scheduler e.subject (rosters e.subject)
  (answered.1, Function.update rosters e.subject answered.2)

/-- Does errands one after another. -/
def run (rosters : Rosters) : List Errand → List RosterReply × Rosters
  | [] => ([], rosters)
  | e :: errands =>
    let answered := rosters.step e
    let rest := answered.2.run errands
    (answered.1 :: rest.1, rest.2)

/-- The names have no colons and no index reaches the limit. -/
def Permits (rosters : Rosters) (e : Errand) : Prop :=
  Plain e.subject ∧ e.op.Fits (rosters e.subject)

/-- Each of the errands is permitted when its turn comes. -/
def PermitsAll (rosters : Rosters) : List Errand → Prop
  | [] => True
  | e :: errands => rosters.Permits e ∧ (rosters.step e).2.PermitsAll errands

end Rosters

/-! ## The scheduler on its table -/

namespace Store

open Roster

/-- Does an errand. -/
def serve (store : Store) (e : Errand) : RosterReply × Store :=
  let (appId, version) := e.subject
  match e.op with
  | .setCount count =>
    match e.scheduler.scheduler (.setCount appId version count) store with
    | (.ok _, after) => (.done, after)
    | (.error f, after) => (.failed f, after)
  | .query =>
    match e.scheduler.scheduler (.query appId version) store with
    | (.ok health, after) => (.health health.running.toNat health.healthy.toNat, after)
    | (.error f, after) => (.failed f, after)
  | .remove =>
    match e.scheduler.scheduler (.remove appId version) store with
    | (.ok removed, after) => (.removed removed.toNat, after)
    | (.error f, after) => (.failed f, after)
  | .instanceCount =>
    match LocalScheduler.instanceCount store appId version with
    | .ok count => (.counted count.toNat, store)
    | .error f => (.failed (.store f), store)
  | .markReady =>
    match e.scheduler.markReady store appId version with
    | .ok (marked, after) => (.readied marked.toNat, after)
    | .error f => (.failed (.store f), store)
  | .markUnhealthy index =>
    match e.scheduler.markUnhealthy store appId version index with
    | .ok (present, after) => (.found present, after)
    | .error f => (.failed (.store f), store)
  | .markCrashed index =>
    match e.scheduler.markCrashed store appId version index with
    | .ok (present, after) => (.found present, after)
    | .error f => (.failed (.store f), store)

/-- Does errands one after another. -/
def serveAll (store : Store) : List Errand → List RosterReply × Store
  | [] => ([], store)
  | e :: errands =>
    let answered := store.serve e
    let rest := answered.2.serveAll errands
    (answered.1 :: rest.1, rest.2)

variable {store : Store} {subject : String × String} {roster : List Instance} {i : Instance}

/-- As many results are read as there are texts. -/
theorem length_of_mapM {α β ε : Type} {f : α → Except ε β} {as : List α} {bs : List β}
    (h : as.mapM f = .ok bs) : bs.length = as.length := by
  induction as generalizing bs with
  | nil =>
    obtain rfl := Except.ok.inj h
    rfl
  | cons a as ih =>
    rw [List.mapM_cons] at h
    cases hfirst : f a with
    | error e =>
      rw [hfirst] at h
      cases h
    | ok b =>
      cases hrest : as.mapM f with
      | error e =>
        rw [hfirst, hrest] at h
        cases h
      | ok rest =>
        rw [hfirst, hrest] at h
        obtain rfl := Except.ok.inj h
        rw [List.length_cons, List.length_cons, ih hrest]

/-- Where there are enough indexes, fresh instances are put one after the other. -/
theorem grow_eq (s : LocalScheduler) (store : Store) (subject : String × String)
    {roster : List Instance} {added : UInt32}
    (hfits : Roster.free roster + added.toNat < UInt32.size) :
    s.grow store subject.1 subject.2 roster added =
      (Roster.additions s subject (Roster.free roster) added.toNat).foldl putInstance store := by
  have hfirst : (LocalScheduler.nextIndex roster).toNat = Roster.free roster := by
    rw [nextIndex_eq]
    exact UInt32.toNat_ofNat_of_lt' (Nat.lt_of_le_of_lt (Nat.le_add_right _ _) hfits)
  have hstop : (LocalScheduler.nextIndex roster + added).toNat =
      Roster.free roster + added.toNat := by
    rw [UInt32.toNat_add, hfirst]
    exact Nat.mod_eq_of_lt hfits
  rw [LocalScheduler.grow, LocalScheduler.newIndexes, hstop, hfirst, Nat.add_sub_cancel_left,
    Roster.additions, List.foldl_map, List.foldl_map]

namespace Rostered

/-! ### Growing and shrinking -/

/-- Fresh instances with the next indexes are added at the end. -/
theorem becomes_additions (h : store.Rostered) (hplain : Plain subject) (s : LocalScheduler)
    {added : Nat} (hroster : store.recordedOf subject = roster)
    (hfits : Roster.free roster + added ≤ indexLimit) :
    store.Becomes subject (roster ++ Roster.additions s subject (Roster.free roster) added)
      ((Roster.additions s subject (Roster.free roster) added).foldl Store.putInstance store) := by
  induction added with
  | zero =>
    rw [Roster.additions, List.range'_zero, List.map_nil, List.append_nil, ← hroster]
    exact h.becomes_self subject
  | succ added ih =>
    have hgrown := ih (Nat.le_of_succ_le hfits)
    have hbelow : Roster.free roster + added < indexLimit := hfits
    let last := s.fresh subject.1 subject.2 (UInt32.ofNat (Roster.free roster + added))
    have hindex : last.index.toNat = Roster.free roster + added := toNat_ofNat_of_lt hbelow
    have hlast : ∀ j ∈ roster ++ Roster.additions s subject (Roster.free roster) added,
        j.index < last.index := by
      intro j hj
      rw [UInt32.lt_iff_toNat_lt, hindex]
      rcases List.mem_append.mp hj with hj | hj
      · exact Nat.lt_add_right added (lt_free (hroster ▸ h.ordered subject) hj)
      · obtain ⟨n, hn, rfl⟩ := mem_additions hj
        show (UInt32.ofNat n).toNat < _
        rw [toNat_ofNat_of_lt (Nat.lt_trans hn hbelow)]
        exact hn
    rw [additions_succ, List.foldl_append, ← List.append_assoc]
    exact hgrown.append rfl hplain (hindex.trans_lt hbelow) hlast

/-- A version grows at the end of its list. -/
theorem becomes_grow (h : store.Rostered) (hplain : Plain subject) (s : LocalScheduler)
    {added : UInt32} (hroster : store.recordedOf subject = roster)
    (hfits : Roster.free roster + added.toNat ≤ indexLimit) :
    store.Becomes subject (roster ++ Roster.additions s subject (Roster.free roster) added.toNat)
      (s.grow store subject.1 subject.2 roster added) := by
  have hlimit : indexLimit < UInt32.size := by decide
  rw [grow_eq s store subject (Nat.lt_of_le_of_lt hfits hlimit)]
  exact h.becomes_additions hplain s hroster hfits

/-- Shrinking drops instances from the end of the list. -/
theorem becomes_shrink (h : store.Rostered) (hplain : Plain subject)
    (hroster : store.recordedOf subject = roster) (removed : Nat) :
    store.Becomes subject (roster.take (roster.length - removed))
      (LocalScheduler.shrink store subject.1 subject.2 roster removed) := by
  induction removed generalizing store roster with
  | zero =>
    rw [Nat.sub_zero, List.take_length, ← hroster]
    exact h.becomes_self subject
  | succ removed ih =>
    rcases List.eq_nil_or_concat roster with rfl | ⟨init, last, rfl⟩
    · have hself := h.becomes_self subject
      rw [hroster] at hself
      rw [LocalScheduler.shrink, List.reverse_nil, List.take_nil, List.take_nil]
      exact hself
    · rw [List.concat_eq_append] at hroster ⊢
      have hdropped := (h.becomes_self subject).drop hplain last.index
      rw [hroster, filter_last (hroster ▸ h.ordered subject)] at hdropped
      have hrest := ih hdropped.rostered hdropped.recordedOf_eq
      have htake : (init ++ [last]).take ((init ++ [last]).length - (removed + 1)) =
          init.take (init.length - removed) := by
        rw [List.length_append, List.length_singleton, Nat.add_sub_add_right,
          List.take_append_of_le_length (Nat.sub_le _ _)]
      have hshrink : LocalScheduler.shrink store subject.1 subject.2 (init ++ [last])
          (removed + 1) = LocalScheduler.shrink
            (store.deleteInstance subject.1 subject.2 last.index).2 subject.1 subject.2 init
              removed := by
        rw [LocalScheduler.shrink, List.reverse_append, List.reverse_singleton,
          List.singleton_append, List.take_succ_cons, List.foldl_cons]
        rfl
      rw [htake, hshrink]
      exact hdropped.trans hrest

/-! ### Marking -/

/-- Some instances of a version are written again in their places. -/
theorem becomes_rewrite (h : store.Rostered) {f : Instance → Instance}
    (hsubject : ∀ i, (f i).subject = i.subject) (hindex : ∀ i, (f i).index = i.index)
    {todo : List Instance} (htodo : ∀ i ∈ todo, i ∈ store.recordedOf subject)
    (hnodup : todo.Nodup) :
    store.Becomes subject ((store.recordedOf subject).map fun i => if i ∈ todo then f i else i)
      (todo.foldl (fun store i => store.putInstance (f i)) store) := by
  induction todo generalizing store with
  | nil =>
    have hself := h.becomes_self subject
    simpa using hself
  | cons first todo ih =>
    obtain ⟨hfirst, htodo⟩ := List.forall_mem_cons.mp htodo
    obtain ⟨hfresh, hnodup⟩ := List.nodup_cons.mp hnodup
    obtain ⟨-, rfl⟩ := mem_recordedOf.mp hfirst
    -- Only the first one has its index, so the others stay to be written.
    have hsame {i : Instance} (hi : i ∈ store.recordedOf first.subject) :
        i.index = (f first).index ↔ i = first := by
      rw [hindex]
      constructor
      · exact (h.ordered _).eq_of_index hi hfirst
      · exact congrArg Instance.index
    have hput : store.Becomes first.subject
        ((store.recordedOf first.subject).map fun i => if i = first then f first else i)
        (store.putInstance (f first)) := by
      have hput := h.becomes_replace (i := f first) (hsubject first ▸ hfirst) (hindex first).symm
      rw [hsubject] at hput
      rwa [List.map_congr_left fun i hi => if_congr (hsame hi) rfl rfl] at hput
    have hleft : ∀ i ∈ todo, i ∈ (store.putInstance (f first)).recordedOf first.subject := by
      intro i hi
      rw [hput.recordedOf_eq, List.mem_map]
      refine ⟨i, htodo i hi, if_neg ?_⟩
      rintro rfl
      exact hfresh hi
    have hrest := ih hput.rostered hleft hnodup
    have hboth : (store.recordedOf first.subject).map
          (fun i => if i ∈ first :: todo then f i else i) =
        ((store.recordedOf first.subject).map fun i => if i = first then f first else i).map
          fun i => if i ∈ todo then f i else i := by
      rw [List.map_map]
      refine List.map_congr_left fun i hi => ?_
      rw [Function.comp_apply]
      by_cases hi : i = first
      · have hdone : f first ∉ todo := by
          intro hmem
          rw [(hsame (htodo _ hmem)).mp rfl] at hmem
          exact hfresh hmem
        rw [hi, if_pos List.mem_cons_self, if_pos rfl, if_neg hdone]
      · have hmem : i ∈ first :: todo ↔ i ∈ todo := by simp [hi]
        rw [if_neg hi, if_congr hmem rfl rfl]
    rw [hput.recordedOf_eq, ← hboth] at hrest
    exact hput.trans hrest

/-- Marking a version ready changes its instances in their places. -/
theorem becomes_markReady (h : store.Rostered) (s : LocalScheduler)
    (hroster : store.recordedOf subject = roster) :
    store.Becomes subject
      (roster.map fun i =>
        if i.isHealthy then i
        else { i with status := .running, health := .healthy, updatedAt := s.now })
      ((roster.filter (!·.isHealthy)).foldl (fun store i => store.putInstance
        { i with status := .running, health := .healthy, updatedAt := s.now }) store) := by
  obtain rfl := hroster
  let ready (i : Instance) : Instance :=
    { i with status := .running, health := .healthy, updatedAt := s.now }
  have hmarked := h.becomes_rewrite (f := ready) (fun _ => rfl) (fun _ => rfl)
    (fun _ => List.mem_of_mem_filter) ((h.ordered subject).nodup.filter (!·.isHealthy))
  have hsame : (store.recordedOf subject).map (fun i => if i.isHealthy then i else ready i) =
      (store.recordedOf subject).map fun i =>
        if i ∈ (store.recordedOf subject).filter (!·.isHealthy) then ready i else i := by
    refine List.map_congr_left fun i hi => ?_
    by_cases hhealthy : i.isHealthy = true
    · simp [hhealthy]
    · simp [hhealthy, hi]
  rw [hsame]
  exact hmarked

/-- Writing a changed instance changes it in its place. -/
theorem becomes_change (h : store.Rostered) (s : LocalScheduler) {f : Instance → Instance}
    (hsubject : ∀ i, (f i).subject = i.subject) (hindex : ∀ i, (f i).index = i.index)
    (hi : i ∈ store.recordedOf subject) :
    store.Becomes subject (Roster.change i.index s.now f (store.recordedOf subject))
      (store.putInstance { f i with updatedAt := s.now }) := by
  let change (j : Instance) : Instance := { f j with updatedAt := s.now }
  have hchanged := h.becomes_rewrite (f := change) hsubject hindex
    (List.forall_mem_singleton.mpr hi) (List.nodup_singleton i)
  have hsame : Roster.change i.index s.now f (store.recordedOf subject) =
      (store.recordedOf subject).map fun j => if j ∈ [i] then change j else j := by
    refine List.map_congr_left fun j hj => if_congr ?_ rfl rfl
    rw [List.mem_singleton]
    constructor
    · exact (h.ordered subject).eq_of_index hj hi
    · exact congrArg Instance.index
  rw [hsame]
  exact hchanged

/-! ### Numbers -/

private theorem free_le (h : store.Rostered) (subject : String × String) :
    Roster.free (store.recordedOf subject) ≤ indexLimit := by
  unfold Roster.free
  cases hlast : (store.recordedOf subject).getLast? with
  | none => exact Nat.zero_le _
  | some last => exact h.below last (mem_recordedOf.mp (List.mem_of_getLast? hlast)).1

private theorem length_lt (h : store.Rostered) (subject : String × String) :
    (store.recordedOf subject).length < UInt32.size := by
  calc (store.recordedOf subject).length
    _ ≤ Roster.free (store.recordedOf subject) := length_le_free (h.ordered subject)
    _ ≤ indexLimit := h.free_le subject
    _ < UInt32.size := by decide

/-- So many instances are removed as there were. -/
theorem removed_toNat (h : store.Rostered) (hplain : Plain subject) :
    (store.deleteInstances subject.1 subject.2).1.toNat = (store.recordedOf subject).length := by
  have hlength := length_of_mapM (h.instanceList_eq hplain)
  rw [List.length_map] at hlength
  show (UInt32.ofNat ((store.instanceEntries subject.1 subject.2).map Prod.fst).length).toNat = _
  rw [List.length_map, ← hlength, UInt32.toNat_ofNat_of_lt' (h.length_lt subject)]

/-! ## Errands -/

/-- The number of instances of a version with some property is counted without a loss. -/
theorem toNat_countP (h : store.Rostered) (subject : String × String) (p : Instance → Bool) :
    (UInt32.ofNat ((store.recordedOf subject).countP p)).toNat =
      (store.recordedOf subject).countP p :=
  UInt32.toNat_ofNat_of_lt' (Nat.lt_of_le_of_lt List.countP_le_length (h.length_lt subject))

/-- A call for a number of instances leaves that number of them. -/
theorem setCount_becomes (h : store.Rostered) (hplain : Plain subject) (s : LocalScheduler)
    {count : UInt32} (hfits : (RosterOp.setCount count).Fits (store.recordedOf subject)) :
    ∃ after, s.setCount store subject.1 subject.2 count = .ok after ∧
      store.Becomes subject
        ((RosterOp.setCount count).apply s subject (store.recordedOf subject)).2 after := by
  have hfits : Roster.free (store.recordedOf subject) +
      (count.toNat - (store.recordedOf subject).length) ≤ indexLimit := hfits
  have hlength := UInt32.toNat_ofNat_of_lt' (h.length_lt subject)
  have hset : s.setCount store subject.1 subject.2 count =
      if UInt32.ofNat (store.recordedOf subject).length < count then
        .ok (s.grow store subject.1 subject.2 (store.recordedOf subject)
          (count - UInt32.ofNat (store.recordedOf subject).length))
      else
        .ok (LocalScheduler.shrink store subject.1 subject.2 (store.recordedOf subject)
          (UInt32.ofNat (store.recordedOf subject).length - count).toNat) := by
    rw [LocalScheduler.setCount, h.instanceList_eq hplain]
    rfl
  rw [hset, RosterOp.apply]
  split
  · next hlt =>
    have hlt : (store.recordedOf subject).length < count.toNat :=
      hlength ▸ UInt32.lt_iff_toNat_lt.mp hlt
    have hadded := toNat_sub_ofNat (Nat.le_of_lt hlt)
    refine ⟨_, rfl, ?_⟩
    rw [← hadded] at hfits
    rw [List.take_of_length_le (Nat.le_of_lt hlt), ← hadded]
    exact h.becomes_grow hplain s rfl hfits
  · next hge =>
    have hle := UInt32.le_iff_toNat_le.mp (UInt32.not_lt.mp hge)
    have hremoved : (UInt32.ofNat (store.recordedOf subject).length - count).toNat =
        (store.recordedOf subject).length - count.toNat := by
      rw [UInt32.toNat_sub_of_le _ _ (UInt32.le_iff_toNat_le.mpr hle), hlength]
    rw [hlength] at hle
    have hshrunk := h.becomes_shrink hplain rfl ((store.recordedOf subject).length - count.toNat)
    refine ⟨_, rfl, ?_⟩
    rw [hremoved]
    rw [Nat.sub_sub_self hle] at hshrunk
    rw [Nat.sub_eq_zero_of_le hle]
    simpa [Roster.additions] using hshrunk

/-- Marking a version ready answers and leaves what it does on the list. -/
theorem markReady_becomes (h : store.Rostered) (hplain : Plain subject) (s : LocalScheduler) :
    ∃ marked after, s.markReady store subject.1 subject.2 = .ok (marked, after) ∧
      marked.toNat = (store.recordedOf subject).countP (!·.isHealthy) ∧
      store.Becomes subject (RosterOp.markReady.apply s subject (store.recordedOf subject)).2
        after := by
  have hmark := h.becomes_markReady s (rfl : store.recordedOf subject = _)
  rw [LocalScheduler.markReady, h.instanceList_eq hplain]
  refine ⟨_, _, rfl, ?_, hmark⟩
  rw [← List.countP_eq_length_filter]
  exact h.toNat_countP subject _

/-- Marking says whether there is an instance with the index, and changes only that one. -/
theorem mark_becomes (h : store.Rostered) (hplain : Plain subject) (s : LocalScheduler)
    (index : UInt32) {f : Instance → Instance} (hsubject : ∀ i, (f i).subject = i.subject)
    (hindex : ∀ i, (f i).index = i.index) :
    ∃ after, s.mark store subject.1 subject.2 index f =
        .ok ((store.recordedOf subject).any (·.index = index), after) ∧
      store.Becomes subject (Roster.change index s.now f (store.recordedOf subject)) after := by
  rw [LocalScheduler.mark, h.instanceList_eq hplain]
  cases hfind : (store.recordedOf subject).find? (·.index = index) with
  | none =>
    have hnone : ∀ i ∈ store.recordedOf subject, i.index ≠ index := by
      simpa using List.find?_eq_none.mp hfind
    have hany : (store.recordedOf subject).any (·.index = index) = false := by
      simpa using hnone
    have hsame : Roster.change index s.now f (store.recordedOf subject) =
        store.recordedOf subject := by
      refine (List.map_congr_left fun i hi => if_neg (hnone i hi)).trans ?_
      exact List.map_id' _
    rw [hany, hsame]
    refine ⟨store, ?_, h.becomes_self subject⟩
    simp only [bind, Except.bind, hfind]
    rfl
  | some i =>
    have hi := List.mem_of_find?_eq_some hfind
    obtain rfl : i.index = index := by simpa using List.find?_some hfind
    have hany : (store.recordedOf subject).any (·.index = i.index) = true :=
      List.any_eq_true.mpr ⟨i, hi, decide_eq_true rfl⟩
    rw [hany]
    refine ⟨store.putInstance { f i with updatedAt := s.now }, ?_,
      h.becomes_change s hsubject hindex hi⟩
    simp only [bind, Except.bind, hfind]
    rfl

/-- An errand is answered as for the list of its version, which becomes the one that is left. -/
theorem serve (h : store.Rostered) {e : Errand} (hpermitted : Rosters.Permits store.recordedOf e) :
    (store.serve e).1 = (Rosters.step store.recordedOf e).1 ∧
      store.Becomes e.subject
        (e.op.apply e.scheduler e.subject (store.recordedOf e.subject)).2 (store.serve e).2 := by
  obtain ⟨s, subject, op⟩ := e
  obtain ⟨hplain, hfits⟩ := hpermitted
  have hself := h.becomes_self subject
  cases op with
  | setCount count =>
    obtain ⟨after, hset, hbecomes⟩ := h.setCount_becomes hplain s hfits
    simp only [Store.serve, LocalScheduler.scheduler, hset]
    exact ⟨rfl, hbecomes⟩
  | query =>
    have hhealth : LocalScheduler.health store subject.1 subject.2 = .ok
        ⟨UInt32.ofNat ((store.recordedOf subject).countP Instance.isRunning),
          UInt32.ofNat ((store.recordedOf subject).countP Instance.isHealthy)⟩ := by
      rw [LocalScheduler.health, h.instanceList_eq hplain]
      rfl
    simp only [Store.serve, LocalScheduler.scheduler, hhealth, Except.mapError, h.toNat_countP]
    exact ⟨rfl, hself⟩
  | remove =>
    have hremoved := h.removed_toNat hplain
    simp only [Store.serve, LocalScheduler.scheduler, hremoved]
    exact ⟨rfl, h.becomes_remove hplain⟩
  | instanceCount =>
    have hcount : LocalScheduler.instanceCount store subject.1 subject.2 =
        .ok (UInt32.ofNat (store.recordedOf subject).length) := by
      rw [LocalScheduler.instanceCount, h.instanceList_eq hplain]
      rfl
    simp only [Store.serve, hcount, UInt32.toNat_ofNat_of_lt' (h.length_lt subject)]
    exact ⟨rfl, hself⟩
  | markReady =>
    obtain ⟨marked, after, hmark, hmarked, hbecomes⟩ := h.markReady_becomes hplain s
    simp only [Store.serve, hmark, hmarked]
    exact ⟨rfl, hbecomes⟩
  | markUnhealthy index =>
    obtain ⟨after, hmark, hbecomes⟩ := h.mark_becomes hplain s index
      (f := fun i => { i with health := .unhealthy }) (fun _ => rfl) (fun _ => rfl)
    simp only [Store.serve, LocalScheduler.markUnhealthy, hmark]
    exact ⟨rfl, hbecomes⟩
  | markCrashed index =>
    obtain ⟨after, hmark, hbecomes⟩ := h.mark_becomes hplain s index
      (f := fun i => { i with status := .crashed, health := .unknown }) (fun _ => rfl)
      (fun _ => rfl)
    simp only [Store.serve, LocalScheduler.markCrashed, hmark]
    exact ⟨rfl, hbecomes⟩

/-- Errands are answered as for the lists of instances, which the store then holds. -/
theorem serveAll (h : store.Rostered) {errands : List Errand}
    (hpermitted : Rosters.PermitsAll store.recordedOf errands) :
    (store.serveAll errands).1 = (Rosters.run store.recordedOf errands).1 ∧
      (store.serveAll errands).2.Rostered ∧
      (store.serveAll errands).2.recordedOf = (Rosters.run store.recordedOf errands).2 := by
  induction errands generalizing store with
  | nil => exact ⟨rfl, h, rfl⟩
  | cons e errands ih =>
    obtain ⟨hfirst, hrest⟩ := hpermitted
    obtain ⟨hreply, hrostered, hrosters⟩ := h.serve hfirst
    rw [Rosters.step, ← hrosters] at hrest
    obtain ⟨hreplies, hlast, hlists⟩ := ih hrostered hrest
    rw [Store.serveAll, Rosters.run, hreply, Rosters.step, ← hrosters, hreplies]
    exact ⟨rfl, hlast, hlists⟩

end Rostered

end Store

/-! ## What can be relied on -/

namespace Roster

variable {subject : String × String} {roster : List Instance}

/-- What the operations do to an ordered list of instances of one version. -/
structure Promises (s : LocalScheduler) (subject : String × String) (roster : List Instance) :
    Prop where
  /-- The list is ordered by index. -/
  ordered : Ordered roster
  /-- It has instances of this version, with indexes below the limit. -/
  members : ∀ i ∈ roster, i.subject = subject ∧ i.index.toNat < indexLimit
  /-- Exactly so many instances are left. The first ones stay, and missing ones are appended with
  consecutive indexes, beginning after the highest one. -/
  setCount : ∀ count : UInt32, (RosterOp.setCount count).Fits roster →
    ∃ added, ((RosterOp.setCount count).apply s subject roster).2 =
        roster.take count.toNat ++ added ∧
      ((RosterOp.setCount count).apply s subject roster).2.length = count.toNat ∧
      (∀ i ∈ roster, i.index.toNat < free roster) ∧
      added.map (fun i => i.index.toNat) =
        List.range' (free roster) (count.toNat - roster.length) ∧
      ∀ i ∈ added, i = s.fresh subject.1 subject.2 i.index
  /-- Healthy instances run. -/
  query : roster.countP Instance.isHealthy ≤ roster.countP Instance.isRunning
  /-- Afterwards all instances run and are healthy, under their indexes and since they were
  started. -/
  markReady : (RosterOp.markReady.apply s subject roster).2.countP Instance.isHealthy =
      roster.length ∧
    (RosterOp.markReady.apply s subject roster).2.countP Instance.isRunning = roster.length ∧
    (RosterOp.markReady.apply s subject roster).2.map (fun i => (i.index, i.startedAt)) =
      roster.map fun i => (i.index, i.startedAt)
  /-- Where no instance has the index, nothing changes. -/
  unmarked : ∀ (index : UInt32) (f : Instance → Instance), roster.any (·.index = index) = false →
    change index s.now f roster = roster

/-- After a count is set there are so many instances. -/
theorem length_setCount (s : LocalScheduler) (subject : String × String) (roster : List Instance)
    (count : UInt32) :
    ((RosterOp.setCount count).apply s subject roster).2.length = count.toNat := by
  show (roster.take count.toNat ++ additions s subject (free roster)
    (count.toNat - roster.length)).length = count.toNat
  rw [List.length_append, List.length_take, additions, List.length_map, List.length_range']
  omega

/-- The additions have consecutive indexes. -/
theorem indexes_additions (s : LocalScheduler) (subject : String × String) {first added : Nat}
    (hfits : first + added ≤ indexLimit) :
    (additions s subject first added).map (fun i => i.index.toNat) = List.range' first added := by
  rw [additions, List.map_map]
  refine (List.map_congr_left fun n hn => ?_).trans (List.map_id _)
  exact toNat_ofNat_of_lt
    (Nat.lt_of_lt_of_le (List.mem_range'_1.mp hn).2 hfits)

/-- Once a version is marked ready all its instances run and are healthy. -/
theorem ready_markReady (s : LocalScheduler) (subject : String × String) (roster : List Instance) :
    ∀ i ∈ (RosterOp.markReady.apply s subject roster).2,
      i.isRunning = true ∧ i.isHealthy = true := by
  intro i hi
  obtain ⟨j, -, rfl⟩ := List.mem_map.mp hi
  split
  · next hhealthy =>
    have hboth := hhealthy
    rw [Instance.isHealthy, Bool.and_eq_true] at hboth
    exact ⟨hboth.1, hhealthy⟩
  · exact ⟨rfl, rfl⟩

/-- There are no more healthy instances than running ones. -/
theorem healthy_le_running (roster : List Instance) :
    roster.countP Instance.isHealthy ≤ roster.countP Instance.isRunning := by
  refine List.countP_mono_left fun i _ hhealthy => ?_
  rw [Instance.isHealthy, Bool.and_eq_true] at hhealthy
  exact hhealthy.1

/-- Any ordered list of instances of one version keeps these promises. -/
theorem promises (s : LocalScheduler) (hordered : Ordered roster)
    (hmembers : ∀ i ∈ roster, i.subject = subject ∧ i.index.toNat < indexLimit) :
    Promises s subject roster where
  ordered := hordered
  members := hmembers
  setCount count hfits :=
    ⟨_, rfl, length_setCount s subject roster count, fun _ => lt_free hordered,
      indexes_additions s subject hfits, fun i hi => by
        obtain ⟨n, -, rfl⟩ := mem_additions hi
        rfl⟩
  query := healthy_le_running roster
  markReady := by
    have hready := ready_markReady s subject roster
    have hlength : (RosterOp.markReady.apply s subject roster).2.length = roster.length :=
      List.length_map _
    refine ⟨?_, ?_, ?_⟩
    · rw [← hlength, List.countP_eq_length]
      exact fun i hi => (hready i hi).2
    · rw [← hlength, List.countP_eq_length]
      exact fun i hi => (hready i hi).1
    · show (roster.map _).map _ = _
      rw [List.map_map]
      refine List.map_congr_left fun i _ => ?_
      rw [Function.comp_apply]
      split
      · rfl
      · rfl
  unmarked index f hnone := by
    have hnone : ∀ i ∈ roster, i.index ≠ index := by simpa using hnone
    exact (List.map_congr_left fun i hi => if_neg (hnone i hi)).trans (List.map_id' _)

end Roster

/-! ## The local scheduler -/

namespace Store

/-- The table of instances was made by writing and removing instances. -/
inductive Built : Store → Prop where
  | empty (deployments : Table String) : Built ⟨deployments, .empty⟩
  | put {store : Store} {i : Instance} (h : Built store) (hplain : Plain i.subject)
    (hbelow : i.index.toNat < indexLimit) : Built (store.putInstance i)
  | delete {store : Store} (h : Built store) (subject : String × String) (index : UInt32) :
    Built (store.deleteInstance subject.1 subject.2 index).2

/-- A table that was built is a plain table. -/
theorem Built.rostered {store : Store} (h : store.Built) : store.Rostered := by
  induction h with
  | empty deployments =>
    refine ⟨kept_empty deployments, ?_, ?_⟩
    · intro i hi
      cases hi
    · intro i hi
      cases hi
  | put _ hplain hbelow ih => exact ih.putInstance hplain hbelow
  | delete _ subject index ih => exact ih.deleteInstance subject index

/-- **The local scheduler keeps rosters.** From whatever table of instances it starts, a local
scheduler answers every sequence of permitted errands as if it had a list of instances for each
version. These are the lists that can be read from its table afterwards, ordered by index, and the
next errand does to them what is promised. -/
theorem Built.keeps_rosters {store : Store} (h : store.Built) {errands : List Errand}
    (hpermitted : Rosters.PermitsAll store.recordedOf errands) :
    let served := store.serveAll errands
    let rosters := Rosters.run store.recordedOf errands
    served.1 = rosters.1 ∧ served.2.recordedOf = rosters.2 ∧
      ∀ subject, Plain subject →
        served.2.instanceList subject.1 subject.2 = .ok (rosters.2 subject) ∧
        ∀ s, Roster.Promises s subject (rosters.2 subject) := by
  intro served rosters
  obtain ⟨hreplies, hrostered, hlists⟩ := h.rostered.serveAll hpermitted
  refine ⟨hreplies, hlists, fun subject hplain => ⟨?_, fun s => ?_⟩⟩
  · rw [hrostered.instanceList_eq hplain, hlists]
  · refine Roster.promises s ?_ ?_
    · rw [← hlists]
      exact hrostered.ordered subject
    · intro i hi
      rw [← hlists] at hi
      obtain ⟨hrecorded, hsubject⟩ := mem_recordedOf.mp hi
      exact ⟨hsubject, hrostered.below i hrecorded⟩

/-- Three instances of a version, of which the second is removed. -/
def gapped : Store :=
  let s : LocalScheduler := ⟨false, 1⟩
  ((((empty.putInstance (s.fresh "shop" "1" 0)).putInstance (s.fresh "shop" "1" 1)).putInstance
    (s.fresh "shop" "1" 2)).deleteInstance "shop" "1" 1).2

private theorem built_gapped : gapped.Built :=
  .delete (.put (.put (.put (.empty .empty) (by decide) (by decide)) (by decide) (by decide))
    (by decide) (by decide)) ("shop", "1") 1

private theorem recordedOf_gapped :
    gapped.recordedOf ("shop", "1") =
      [LocalScheduler.fresh ⟨false, 1⟩ "shop" "1" 0,
        LocalScheduler.fresh ⟨false, 1⟩ "shop" "1" 2] := by
  have hplain : Plain ("shop", "1") := by decide
  have hempty : empty.Becomes ("shop", "1") [] empty :=
    (Built.empty .empty).rostered.becomes_self ("shop", "1")
  have hmade := (((hempty.append (i := LocalScheduler.fresh ⟨false, 1⟩ "shop" "1" 0) rfl hplain
    (by decide) (by decide)).append (i := LocalScheduler.fresh ⟨false, 1⟩ "shop" "1" 1) rfl hplain
    (by decide) (by decide)).append (i := LocalScheduler.fresh ⟨false, 1⟩ "shop" "1" 2) rfl hplain
    (by decide) (by decide)).drop hplain 1
  exact hmade.recordedOf_eq

/-- The gap is not filled when the version grows. -/
theorem keeps_rosters_gapped :
    let s : LocalScheduler := ⟨false, 5⟩
    let errands : List Errand := [⟨s, ("shop", "1"), .setCount 3⟩, ⟨s, ("shop", "1"), .markReady⟩,
      ⟨s, ("shop", "1"), .markCrashed 3⟩, ⟨s, ("shop", "1"), .query⟩,
      ⟨s, ("shop", "1"), .markUnhealthy 1⟩, ⟨s, ("shop", "1"), .setCount 2⟩]
    Rosters.PermitsAll gapped.recordedOf errands ∧
      (gapped.serveAll errands).1 =
        [.done, .readied 3, .found true, .health 2 2, .found false, .done] := by
  intro s errands
  have hgapped := recordedOf_gapped
  have hpermitted : Rosters.PermitsAll gapped.recordedOf errands := by
    simp only [errands, s, Rosters.PermitsAll, Rosters.step, Rosters.Permits, hgapped,
      Function.update_self]
    decide
  have hreplies : (Rosters.run gapped.recordedOf errands).1 =
      [.done, .readied 3, .found true, .health 2 2, .found false, .done] := by
    simp only [errands, Rosters.run, Rosters.step, hgapped, Function.update_self]
    rfl
  obtain ⟨hserved, -⟩ := built_gapped.keeps_rosters hpermitted
  exact ⟨hpermitted, hserved.trans hreplies⟩

end Store

end Rollout
