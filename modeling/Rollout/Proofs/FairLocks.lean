import Mathlib.Data.Finset.Card
import Rollout.TickLocks

/-!
# The locks are fair

A run of the locks is told with an account of who has asked, who was granted, who has given a guard
back, and who has given up waiting. At every point of a run exactly those guards are held that were
granted and not given back, at most one for a deployment, and whoever waits waits for such a guard.
The requests for one deployment are granted in the order in which they were made, and what happens
to them does not depend on the requests for others.
-/

namespace Rollout

/-! ## Requests for one deployment -/

/-- The requests for one deployment among others. -/
def ofId (id : String) (requests : List LockRequest) : List LockRequest :=
  requests.filter (·.id = id)

/-- What concerns a deployment is what has its id. -/
@[simp] theorem mem_ofId {id : String} {request : LockRequest} {requests : List LockRequest} :
    request ∈ ofId id requests ↔ request ∈ requests ∧ request.id = id := by
  simp [ofId]

@[simp] private theorem ofId_nil (id : String) : ofId id [] = [] :=
  rfl

@[simp] private theorem ofId_append (id : String) (first second : List LockRequest) :
    ofId id (first ++ second) = ofId id first ++ ofId id second :=
  List.filter_append _ _

private theorem ofId_cons_of_eq {id : String} {request : LockRequest} (h : request.id = id)
    (requests : List LockRequest) : ofId id (request :: requests) = request :: ofId id requests :=
  List.filter_cons_of_pos (by simpa using h)

private theorem ofId_cons_of_ne {id : String} {request : LockRequest} (h : request.id ≠ id)
    (requests : List LockRequest) : ofId id (request :: requests) = ofId id requests :=
  List.filter_cons_of_neg (by simpa using h)

private theorem ofId_filter (id : String) (p : LockRequest → Bool) (requests : List LockRequest) :
    ofId id (requests.filter p) = (ofId id requests).filter p := by
  rw [ofId, ofId, List.filter_filter, List.filter_filter]
  apply List.filter_congr
  intro request _
  exact Bool.and_comm _ _

private theorem filter_not_mem_concat (requests excluded : List LockRequest)
    (request : LockRequest) :
    (requests.filter (· ∉ excluded)).filter (· ≠ request) =
      requests.filter (· ∉ excluded ++ [request]) := by
  rw [List.filter_filter]
  refine List.filter_congr fun other _ => ?_
  rw [← Bool.decide_and, decide_eq_decide, List.mem_append, not_or, List.mem_singleton]
  exact and_comm

namespace TickLocks

/-! ## Grants -/

/-- Every request of a list finds its lock taken. -/
def Awaited (held waiting : List LockRequest) : Prop :=
  ∀ request ∈ waiting, ∃ guard ∈ held, guard.id = request.id

/-- What a pass over waiting requests grants, beside those held before, and what it leaves. -/
structure Grants (held waiting new rest : List LockRequest) : Prop where
  /-- What is granted was not held. -/
  free : ∀ request ∈ new, ∀ guard ∈ held, request.id ≠ guard.id
  /-- No two guards are granted for one deployment. -/
  exclusive : new.Pairwise fun request other => request.id ≠ other.id
  /-- Whoever goes on waiting finds the lock taken. -/
  awaited : Awaited (held ++ new) rest
  /-- Of the requests for one deployment the first ones are granted. -/
  inOrder : ∀ id, ofId id new ++ ofId id rest = ofId id waiting

private theorem any_id_iff {held : List LockRequest} {id : String} :
    held.any (·.id = id) = true ↔ ∃ guard ∈ held, guard.id = id := by
  simp

/-- A pass over the waiting requests grants as it should. -/
theorem grants_grant (held waiting : List LockRequest) :
    ∃ new rest, grant held waiting = (held ++ new, rest) ∧ Grants held waiting new rest := by
  induction waiting generalizing held with
  | nil => exact ⟨[], [], by simp [grant], by simp, .nil, by simp [Awaited], by simp⟩
  | cons request waiting ih =>
    unfold grant
    split
    · next htaken =>
      obtain ⟨guard, hguard, hid⟩ := any_id_iff.mp htaken
      obtain ⟨new, rest, hgrant, hfree, hexclusive, hawaited, horder⟩ := ih held
      rw [hgrant]
      refine ⟨new, request :: rest, rfl, hfree, hexclusive, ?_, fun id => ?_⟩
      · exact List.forall_mem_cons.mpr
          ⟨⟨guard, List.mem_append_left _ hguard, hid⟩, hawaited⟩
      · by_cases hrequest : request.id = id
        · -- The lock was taken, so none of the later requests for it was granted.
          have hnone : ofId id new = [] := by
            rw [List.eq_nil_iff_forall_not_mem]
            intro other hother
            obtain ⟨hmem, hother⟩ := mem_ofId.mp hother
            exact hfree other hmem guard hguard (by rw [hother, hid, hrequest])
          have hrest := horder id
          rw [hnone, List.nil_append] at hrest
          rw [hnone, ofId_cons_of_eq hrequest, ofId_cons_of_eq hrequest, hrest, List.nil_append]
        · rw [ofId_cons_of_ne hrequest, ofId_cons_of_ne hrequest, horder id]
    · next htaken =>
      have hopen (guard : LockRequest) (hguard : guard ∈ held) : request.id ≠ guard.id :=
        fun heq => htaken (any_id_iff.mpr ⟨guard, hguard, heq.symm⟩)
      obtain ⟨new, rest, hgrant, hfree, hexclusive, hawaited, horder⟩ := ih (held ++ [request])
      rw [hgrant]
      refine ⟨request :: new, rest, by simp, ?_, ?_, ?_, fun id => ?_⟩
      · refine List.forall_mem_cons.mpr ⟨hopen, fun other hother guard hguard => ?_⟩
        exact hfree other hother guard (List.mem_append_left _ hguard)
      · refine List.pairwise_cons.mpr ⟨fun other hother heq => ?_, hexclusive⟩
        exact hfree other hother request (by simp) heq.symm
      · simpa using hawaited
      · by_cases hrequest : request.id = id
        · rw [ofId_cons_of_eq hrequest, ofId_cons_of_eq hrequest, List.cons_append, horder id]
        · rw [ofId_cons_of_ne hrequest, ofId_cons_of_ne hrequest, horder id]

/-- What is granted was waiting. -/
theorem Grants.offered {held waiting new rest : List LockRequest}
    (h : Grants held waiting new rest) {request : LockRequest} (hrequest : request ∈ new) :
    request ∈ waiting := by
  have hmem : request ∈ ofId request.id new ++ ofId request.id rest := by simp [hrequest]
  rw [h.inOrder] at hmem
  exact (mem_ofId.mp hmem).1

/-- Where every request finds its lock taken, none is granted. -/
theorem grant_of_awaited {held waiting : List LockRequest} (h : Awaited held waiting) :
    grant held waiting = (held, waiting) := by
  induction waiting with
  | nil => rfl
  | cons request waiting ih =>
    obtain ⟨hfirst, hrest⟩ := List.forall_mem_cons.mp h
    rw [grant, if_pos (any_id_iff.mpr hfirst), ih hrest]

/-- What is granted for one deployment depends on the requests for it alone. -/
theorem grant_ofId (id : String) (held waiting : List LockRequest) :
    grant (ofId id held) (ofId id waiting) =
      (ofId id (grant held waiting).1, ofId id (grant held waiting).2) := by
  induction waiting generalizing held with
  | nil => rfl
  | cons request waiting ih =>
    by_cases hrequest : request.id = id
    · have hsame : (ofId id held).any (·.id = request.id) = held.any (·.id = request.id) := by
        rw [Bool.eq_iff_iff, any_id_iff, any_id_iff]
        constructor
        · rintro ⟨guard, hguard, heq⟩
          exact ⟨guard, (mem_ofId.mp hguard).1, heq⟩
        · rintro ⟨guard, hguard, heq⟩
          exact ⟨guard, mem_ofId.mpr ⟨hguard, heq.trans hrequest⟩, heq⟩
      rw [ofId_cons_of_eq hrequest, grant, grant, hsame]
      split
      · rw [ih held]
        exact congrArg _ (ofId_cons_of_eq hrequest _).symm
      · rw [← ih (held ++ [request]), ofId_append, ofId_cons_of_eq hrequest, ofId_nil]
    · rw [ofId_cons_of_ne hrequest, grant]
      split
      · rw [ih held]
        exact congrArg _ (ofId_cons_of_ne hrequest _).symm
      · rw [← ih (held ++ [request]), ofId_append, ofId_cons_of_ne hrequest, ofId_nil,
          List.append_nil]

/-! ## The locks of one deployment -/

/-- The locks with nothing but what concerns one deployment. -/
def of (id : String) (locks : TickLocks) : TickLocks where
  ids := locks.ids.filter (· = id)
  held := ofId id locks.held
  waiting := ofId id locks.waiting

/-- What is granted for a deployment depends on nothing but its own requests. -/
theorem settle_of (id : String) (locks : TickLocks) :
    (locks.of id).settle = locks.settle.of id := by
  simp only [settle, of, grant_ofId]

/-- While every waiting request finds its lock taken nothing is granted. -/
theorem settle_of_awaited {locks : TickLocks} (h : Awaited locks.held locks.waiting) :
    locks.settle = locks := by
  simp only [settle, grant_of_awaited h]

private theorem Awaited.ofId {held waiting : List LockRequest} (h : Awaited held waiting)
    (id : String) : Awaited (ofId id held) (ofId id waiting) := by
  intro request hrequest
  obtain ⟨hmem, hid⟩ := mem_ofId.mp hrequest
  obtain ⟨guard, hguard, heq⟩ := h request hmem
  exact ⟨guard, mem_ofId.mpr ⟨hguard, heq.trans hid⟩, heq⟩

/-- Asking works the same with only the requests for that deployment. -/
theorem acquire_of (locks : TickLocks) (request : LockRequest) :
    (locks.acquire request).of request.id = (locks.of request.id).acquire request := by
  rw [acquire, ← settle_of, acquire]
  by_cases hmem : request.id ∈ locks.ids <;> simp [of, hmem, ofId_cons_of_eq]

/-- Asking for one deployment does not touch another. -/
theorem acquire_of_ne {locks : TickLocks} (h : Awaited locks.held locks.waiting)
    {request : LockRequest} {id : String} (hne : request.id ≠ id) :
    (locks.acquire request).of id = locks.of id := by
  have hsettled : (locks.of id).settle = locks.of id := settle_of_awaited (h.ofId id)
  rw [acquire, ← settle_of, ← hsettled]
  by_cases hmem : request.id ∈ locks.ids <;> simp [of, hmem, hne, ofId_cons_of_ne]

/-- Giving up works the same with only the requests for that deployment. -/
theorem release_of (locks : TickLocks) (name id : String) :
    (locks.release name).of id = (locks.of id).release name := by
  rw [release, ← settle_of, release]
  simp only [of, ofId_filter]

/-- Giving up a name that is not there does nothing. -/
theorem release_of_absent {locks : TickLocks} (h : Awaited locks.held locks.waiting) {name : String}
    (hheld : ∀ guard ∈ locks.held, guard.name ≠ name)
    (hwaiting : ∀ request ∈ locks.waiting, request.name ≠ name) :
    locks.release name = locks := by
  have hkept {requests : List LockRequest} (hrequests : ∀ request ∈ requests, request.name ≠ name) :
      requests.filter (·.name ≠ name) = requests :=
    List.filter_eq_self.mpr fun request hrequest => decide_eq_true (hrequests request hrequest)
  rw [release, hkept hheld, hkept hwaiting, settle_of_awaited h]

/-! ## What a step grants -/

/-- Asking grants what is then due. -/
theorem acquire_grants (locks : TickLocks) (request : LockRequest) :
    ∃ new, (locks.acquire request).held = locks.held ++ new ∧
      Grants locks.held (locks.waiting ++ [request]) new (locks.acquire request).waiting := by
  obtain ⟨new, rest, hgrant, hgrants⟩ := grants_grant locks.held (locks.waiting ++ [request])
  refine ⟨new, ?_, ?_⟩ <;> simp only [acquire, settle, hgrant]
  exact hgrants

/-- Giving up grants what is then due. -/
theorem release_grants (locks : TickLocks) (name : String) :
    ∃ new, (locks.release name).held = locks.held.filter (·.name ≠ name) ++ new ∧
      Grants (locks.held.filter (·.name ≠ name)) (locks.waiting.filter (·.name ≠ name)) new
        (locks.release name).waiting := by
  obtain ⟨new, rest, hgrant, hgrants⟩ :=
    grants_grant (locks.held.filter (·.name ≠ name)) (locks.waiting.filter (·.name ≠ name))
  refine ⟨new, ?_, ?_⟩ <;> simp only [release, settle, hgrant]
  exact hgrants

end TickLocks

/-! ## Runs -/

/-- What can be done with the lock of a deployment. -/
inductive LockStep where
  | acquire (request : LockRequest)
  /-- Gives back what was granted, or gives up waiting for it. -/
  | release (request : LockRequest)
  deriving DecidableEq, Repr

/-- The request that a step is about. -/
def LockStep.request : LockStep → LockRequest
  | acquire request => request
  | release request => request

/-- The locks, and what has happened to the requests so far. -/
structure LockHistory where
  /-- The locks as they are now. -/
  locks : TickLocks
  /-- All requests, in the order in which they were made. -/
  asked : List LockRequest
  /-- The requests that became guards, in that order. -/
  granted : List LockRequest
  /-- The guards that were given back. -/
  released : List LockRequest
  /-- The requests that were given up before they were granted. -/
  withdrawn : List LockRequest
  deriving DecidableEq, Repr

namespace LockHistory

open TickLocks

/-- Nothing was asked for. -/
def start : LockHistory :=
  ⟨.empty, [], [], [], []⟩

/-- Goes on with other locks, whose new guards have been granted. -/
def turn (history : LockHistory) (locks : TickLocks) : LockHistory :=
  { history with
    locks := locks
    granted := history.granted ++ locks.held.filter (· ∉ history.locks.held) }

/-- A guard is given back, and a request that was not granted is withdrawn. -/
def giveUp (history : LockHistory) (request : LockRequest) : LockHistory :=
  if request ∈ history.granted then { history with released := history.released ++ [request] }
  else { history with withdrawn := history.withdrawn ++ [request] }

/-- The account after a step. -/
def next (history : LockHistory) : LockStep → LockHistory
  | .acquire request =>
    { history with asked := history.asked ++ [request] }.turn (history.locks.acquire request)
  | .release request => (history.giveUp request).turn (history.locks.release request.name)

/-- The account after some steps. -/
def run (history : LockHistory) (steps : List LockStep) : LockHistory :=
  steps.foldl next history

/-- A request is made under a new name, and only what was asked for is given up. -/
def Permits (history : LockHistory) : LockStep → Prop
  | .acquire request => ∀ other ∈ history.asked, other.name ≠ request.name
  | .release request => request ∈ history.asked

/-- Each of the steps is permitted when its turn comes. -/
def Orderly (history : LockHistory) : List LockStep → Prop
  | [] => True
  | step :: steps => history.Permits step ∧ (history.next step).Orderly steps

/-- Whether a step is permitted is seen from the names that were used and the requests that were
made. -/
instance (history : LockHistory) : (step : LockStep) → Decidable (history.Permits step)
  | .acquire request =>
    inferInstanceAs (Decidable (∀ other ∈ history.asked, other.name ≠ request.name))
  | .release request => inferInstanceAs (Decidable (request ∈ history.asked))

/-- Whether steps are orderly is decided along the run. -/
instance decidableOrderly : (history : LockHistory) → (steps : List LockStep) →
    Decidable (history.Orderly steps)
  | _, [] => .isTrue trivial
  | history, step :: steps =>
    haveI := decidableOrderly (history.next step) steps
    inferInstanceAs (Decidable (history.Permits step ∧ (history.next step).Orderly steps))

/-- The account of one deployment. -/
def of (id : String) (history : LockHistory) : LockHistory where
  locks := history.locks.of id
  asked := ofId id history.asked
  granted := ofId id history.granted
  released := ofId id history.released
  withdrawn := ofId id history.withdrawn

/-- The account of one deployment takes its new guards from the locks of that deployment. -/
theorem turn_of (id : String) (history : LockHistory) (locks : TickLocks) :
    (history.turn locks).of id = (history.of id).turn (locks.of id) := by
  have hnew : ofId id (locks.held.filter (· ∉ history.locks.held)) =
      (ofId id locks.held).filter (· ∉ ofId id history.locks.held) := by
    rw [ofId_filter]
    refine List.filter_congr fun guard hguard => ?_
    simp [(mem_ofId.mp hguard).2]
  simp only [turn, of, ofId_append, hnew]
  rfl

/-- Without a change of the locks nothing is granted. -/
theorem turn_self (history : LockHistory) : history.turn history.locks = history := by
  have hnone : history.locks.held.filter (· ∉ history.locks.held) = [] :=
    List.filter_eq_nil_iff.mpr fun guard hguard => by simp [hguard]
  unfold turn
  rw [hnone, List.append_nil]

/-- What is given up is on the account of its own deployment only. -/
theorem giveUp_of (history : LockHistory) (request : LockRequest) (id : String) :
    (history.giveUp request).of id =
      if request.id = id then (history.of id).giveUp request else history.of id := by
  unfold giveUp
  by_cases hid : request.id = id
  · have hmem : request ∈ (history.of id).granted ↔ request ∈ history.granted :=
      mem_ofId.trans (and_iff_left hid)
    rw [if_pos hid]
    split
    · next hgranted =>
      rw [if_pos (hmem.mpr hgranted)]
      simp [of, ofId_cons_of_eq hid]
    · next hgranted =>
      rw [if_neg (mt hmem.mp hgranted)]
      simp [of, ofId_cons_of_eq hid]
  · rw [if_neg hid]
    split <;> simp [of, ofId_cons_of_ne hid]

/-! ## What holds all along -/

/-- The locks are shared fairly, as far as the account goes. -/
structure Fair (history : LockHistory) : Prop where
  /-- Exactly those guards are held that were granted and not given back. -/
  guards : history.locks.held = history.granted.filter (· ∉ history.released)
  /-- No two guards are for one deployment. -/
  exclusive : history.locks.held.Pairwise fun guard other => guard.id ≠ other.id
  /-- Nobody waits for a lock that is free. -/
  awaited : Awaited history.locks.held history.locks.waiting
  /-- The requests for a deployment that were not withdrawn are granted in the order in which
  they were made, and those that wait are the last ones. -/
  inOrder : ∀ id, ofId id history.granted ++ ofId id history.locks.waiting =
    (ofId id history.asked).filter (· ∉ history.withdrawn)

/-- An account that comes from a run. -/
structure Sound (history : LockHistory) : Prop extends Fair history where
  /-- No two requests were made under one name. -/
  names : (history.asked.map LockRequest.name).Nodup
  /-- Only guards are given back. -/
  released : ∀ guard ∈ history.released, guard ∈ history.granted
  /-- Only requests are withdrawn. -/
  withdrawn : ∀ request ∈ history.withdrawn, request ∈ history.asked
  /-- No deployment has two locks. -/
  ids : history.locks.ids.Nodup
  /-- The deployments that have a lock are those that were asked for. -/
  mem_ids : ∀ id, id ∈ history.locks.ids ↔ id ∈ history.asked.map LockRequest.id

namespace Sound

variable {history : LockHistory}

/-- No request was made twice. -/
theorem asked_nodup (h : history.Sound) : history.asked.Nodup :=
  h.names.of_map

/-- A request is known by its name. -/
theorem eq_of_name (h : history.Sound) {request other : LockRequest}
    (hrequest : request ∈ history.asked) (hother : other ∈ history.asked)
    (heq : request.name = other.name) : request = other :=
  List.inj_on_of_nodup_map h.names hrequest hother heq

/-- Nobody is granted or waits who has not asked. -/
theorem mem_asked (h : history.Sound) {request : LockRequest}
    (hrequest : request ∈ history.granted ∨ request ∈ history.locks.waiting) :
    request ∈ history.asked := by
  have hmem : request ∈ ofId request.id history.granted ++
      ofId request.id history.locks.waiting := by
    simpa using hrequest
  rw [h.inOrder, List.mem_filter] at hmem
  exact (mem_ofId.mp hmem.1).1

/-- Every guard was granted. -/
theorem granted_of_held (h : history.Sound) {guard : LockRequest}
    (hguard : guard ∈ history.locks.held) : guard ∈ history.granted :=
  List.mem_of_mem_filter (h.guards ▸ hguard)

/-- What was granted does not wait. -/
theorem not_waiting (h : history.Sound) {request : LockRequest}
    (hrequest : request ∈ history.granted) : request ∉ history.locks.waiting := by
  intro hwaiting
  have hnodup : (ofId request.id history.granted ++
      ofId request.id history.locks.waiting).Nodup := by
    rw [h.inOrder]
    exact (h.asked_nodup.filter _).filter _
  exact (List.nodup_append.mp hnodup).2.2 request (by simpa using hrequest) request
    (by simpa using hwaiting) rfl

/-- A step keeps the guards that are not given back, and offers the free locks to requests that were
not granted before. -/
theorem turn (h : history.Sound) {locks : TickLocks} {asked released withdrawn : List LockRequest}
    {kept offered new : List LockRequest} (hheld : locks.held = kept ++ new)
    (hgrants : Grants kept offered new locks.waiting)
    (hsublist : kept.Sublist history.locks.held)
    (hkept : kept = history.granted.filter (· ∉ released))
    (hoffered : ∀ request ∈ offered, request ∉ history.granted)
    (hnames : (asked.map LockRequest.name).Nodup)
    (hreleased : ∀ guard ∈ released, guard ∈ history.granted)
    (hwithdrawn : ∀ request ∈ withdrawn, request ∈ asked)
    (hids : locks.ids.Nodup)
    (hmem : ∀ id, id ∈ locks.ids ↔ id ∈ asked.map LockRequest.id)
    (horder : ∀ id, ofId id history.granted ++ ofId id offered =
      (ofId id asked).filter (· ∉ withdrawn)) :
    (LockHistory.turn ⟨history.locks, asked, history.granted, released, withdrawn⟩
      locks).Sound := by
  have hfresh (request : LockRequest) (hrequest : request ∈ new) : request ∉ history.granted :=
    hoffered request (hgrants.offered hrequest)
  have hold : kept.filter (· ∉ history.locks.held) = [] :=
    List.filter_eq_nil_iff.mpr fun guard hguard => by simp [hsublist.subset hguard]
  have hnew : new.filter (· ∉ history.locks.held) = new :=
    List.filter_eq_self.mpr fun request hrequest =>
      decide_eq_true (mt h.granted_of_held (hfresh request hrequest))
  have hstays : new.filter (· ∉ released) = new :=
    List.filter_eq_self.mpr fun request hrequest =>
      decide_eq_true (mt (hreleased request) (hfresh request hrequest))
  have hgranted : locks.held.filter (· ∉ history.locks.held) = new := by
    rw [hheld, List.filter_append, hold, hnew, List.nil_append]
  unfold LockHistory.turn
  rw [hgranted]
  refine ⟨⟨?_, ?_, ?_, fun id => ?_⟩, hnames, ?_, hwithdrawn, hids, hmem⟩
  · rw [hheld, List.filter_append, hstays, hkept]
  · rw [hheld]
    refine List.pairwise_append.mpr ⟨h.exclusive.sublist hsublist, hgrants.exclusive, ?_⟩
    intro guard hguard request hrequest heq
    exact hgrants.free request hrequest guard hguard heq.symm
  · rw [hheld]
    exact hgrants.awaited
  · rw [ofId_append, List.append_assoc, hgrants.inOrder, horder]
  · intro guard hguard
    exact List.mem_append_left _ (hreleased guard hguard)

/-- A request under a new name goes to the end of the line. -/
theorem acquire (h : history.Sound) {request : LockRequest}
    (hpermitted : history.Permits (.acquire request)) :
    (history.next (.acquire request)).Sound := by
  have hfresh : request ∉ history.asked := fun hmem => hpermitted request hmem rfl
  obtain ⟨new, hheld, hgrants⟩ := acquire_grants history.locks request
  refine h.turn hheld hgrants (.refl _) h.guards ?_ ?_ h.released ?_ ?_ ?_ fun id => ?_
  · intro other hother hgranted
    rcases List.mem_append.mp hother with hother | hother
    · exact h.not_waiting hgranted hother
    · rw [List.mem_singleton.mp hother] at hgranted
      exact hfresh (h.mem_asked (.inl hgranted))
  · rw [List.map_append, List.nodup_append]
    refine ⟨h.names, List.nodup_singleton _, ?_⟩
    intro name hname other hother
    obtain ⟨asked, hasked, rfl⟩ := List.mem_map.mp hname
    rw [List.mem_singleton.mp hother]
    exact hpermitted asked hasked
  · intro other hother
    exact List.mem_append_left _ (h.withdrawn other hother)
  · show (if request.id ∈ history.locks.ids then history.locks.ids
      else history.locks.ids ++ [request.id]).Nodup
    split
    · exact h.ids
    · next hnew => exact List.concat_eq_append ▸ h.ids.concat hnew
  · intro id
    show id ∈ (if request.id ∈ history.locks.ids then history.locks.ids
      else history.locks.ids ++ [request.id]) ↔ _
    rw [List.map_append, List.mem_append, ← h.mem_ids, List.map_singleton, List.mem_singleton]
    split
    · next hold =>
      constructor
      · exact .inl
      · rintro (hmem | rfl)
        · exact hmem
        · exact hold
    · rw [List.mem_append, List.mem_singleton]
  · have hkept : [request].filter (· ∉ history.withdrawn) = [request] :=
      List.filter_cons_of_pos (by simpa using fun hmem => hfresh (h.withdrawn request hmem))
    rw [ofId_append, ofId_append, ← List.append_assoc, h.inOrder, List.filter_append,
      ← ofId_filter id _ [request], hkept]

/-- What goes by the name of a request is that request. -/
theorem filter_name (h : history.Sound) {request : LockRequest} (hrequest : request ∈ history.asked)
    {requests : List LockRequest} (hasked : ∀ other ∈ requests, other ∈ history.asked) :
    requests.filter (·.name ≠ request.name) = requests.filter (· ≠ request) := by
  refine List.filter_congr fun other hother => ?_
  rw [decide_eq_decide]
  constructor
  · rintro hne rfl
    exact hne rfl
  · intro hne heq
    exact hne (h.eq_of_name (hasked other hother) hrequest heq)

/-- A guard that is given back takes none of those that wait with it. -/
theorem waiting_kept (h : history.Sound) {request : LockRequest}
    (hgranted : request ∈ history.granted) :
    history.locks.waiting.filter (·.name ≠ request.name) = history.locks.waiting := by
  rw [h.filter_name (h.mem_asked (.inl hgranted)) fun other hother => h.mem_asked (.inr hother)]
  refine List.filter_eq_self.mpr fun other hother => decide_eq_true ?_
  rintro rfl
  exact h.not_waiting hgranted hother

/-- A guard is given back, and its lock is offered to those that wait. -/
theorem release_granted (h : history.Sound) {request : LockRequest}
    (hgranted : request ∈ history.granted) : (history.next (.release request)).Sound := by
  have hasked := h.mem_asked (.inl hgranted)
  have hkept : history.locks.held.filter (·.name ≠ request.name) =
      history.granted.filter (· ∉ history.released ++ [request]) := by
    rw [h.filter_name hasked fun guard hguard => h.mem_asked (.inl (h.granted_of_held hguard)),
      h.guards, filter_not_mem_concat]
  obtain ⟨new, hheld, hgrants⟩ := release_grants history.locks request.name
  rw [h.waiting_kept hgranted] at hgrants
  rw [LockHistory.next, giveUp, if_pos hgranted]
  refine h.turn hheld hgrants List.filter_sublist hkept ?_ h.names ?_ h.withdrawn h.ids h.mem_ids
    h.inOrder
  · intro other hother hother'
    exact h.not_waiting hother' hother
  · intro guard hguard
    rcases List.mem_append.mp hguard with hguard | hguard
    · exact h.released guard hguard
    · rw [List.mem_singleton.mp hguard]
      exact hgranted

/-- A request that was not granted leaves the line, and no guard is given back. -/
theorem release_waiting (h : history.Sound) {request : LockRequest}
    (hasked : request ∈ history.asked) (hgranted : request ∉ history.granted) :
    (history.next (.release request)).Sound := by
  have hstays : history.locks.held.filter (·.name ≠ request.name) = history.locks.held := by
    rw [h.filter_name hasked fun guard hguard => h.mem_asked (.inl (h.granted_of_held hguard))]
    refine List.filter_eq_self.mpr fun guard hguard => decide_eq_true ?_
    rintro rfl
    exact hgranted (h.granted_of_held hguard)
  obtain ⟨new, hheld, hgrants⟩ := release_grants history.locks request.name
  rw [hstays] at hheld hgrants
  rw [LockHistory.next, giveUp, if_neg hgranted]
  refine h.turn hheld hgrants (.refl _) h.guards ?_ h.names h.released ?_ h.ids h.mem_ids
    fun id => ?_
  · intro other hother hother'
    exact h.not_waiting hother' (List.mem_of_mem_filter hother)
  · intro other hother
    rcases List.mem_append.mp hother with hother | hother
    · exact h.withdrawn other hother
    · rw [List.mem_singleton.mp hother]
      exact hasked
  · -- The request is none of those that were granted, so it leaves only those that wait.
    have hothers : (ofId id history.granted).filter (· ≠ request) = ofId id history.granted := by
      refine List.filter_eq_self.mpr fun other hother => decide_eq_true ?_
      rintro rfl
      exact hgranted (mem_ofId.mp hother).1
    rw [h.filter_name hasked fun other hother => h.mem_asked (.inr hother), ofId_filter]
    calc ofId id history.granted ++ (ofId id history.locks.waiting).filter (· ≠ request)
      _ = (ofId id history.granted ++ ofId id history.locks.waiting).filter (· ≠ request) := by
        rw [List.filter_append, hothers]
      _ = (ofId id history.asked).filter (· ∉ history.withdrawn ++ [request]) := by
        rw [h.inOrder, filter_not_mem_concat]

/-- Every permitted step leads on to an account that comes from a run. -/
theorem next (h : history.Sound) {step : LockStep} (hpermitted : history.Permits step) :
    (history.next step).Sound := by
  cases step with
  | acquire request => exact h.acquire hpermitted
  | release request =>
    by_cases hgranted : request ∈ history.granted
    · exact h.release_granted hgranted
    · exact h.release_waiting hpermitted hgranted

/-- Permitted steps one after another lead to an account that comes from a run. -/
theorem run (h : history.Sound) {steps : List LockStep} (horderly : history.Orderly steps) :
    (history.run steps).Sound := by
  induction steps generalizing history with
  | nil => exact h
  | cons step steps ih => exact ih (h.next horderly.1) horderly.2

/-- A guard that is given back goes to the first that waits for its lock. -/
theorem handover (h : history.Sound) {guard request : LockRequest} {rest : List LockRequest}
    (hguard : guard ∈ history.locks.held)
    (hfirst : ofId guard.id history.locks.waiting = request :: rest) :
    request ∈ (history.next (.release guard)).locks.held := by
  obtain ⟨new, hheld, hgrants⟩ := release_grants history.locks guard.name
  rw [h.waiting_kept (h.granted_of_held hguard)] at hgrants
  have hline := hgrants.inOrder guard.id
  rw [hfirst] at hline
  have hlocks : (history.next (.release guard)).locks = history.locks.release guard.name := rfl
  rw [hlocks, hheld]
  cases hnew : ofId guard.id new with
  | cons first others =>
    rw [hnew, List.cons_append, List.cons.injEq] at hline
    have hmem : first ∈ ofId guard.id new := hnew ▸ List.mem_cons_self
    rw [← hline.1]
    exact List.mem_append_right _ (mem_ofId.mp hmem).1
  | nil =>
    -- Had nobody been granted this lock, its first request would wait for another guard of it.
    rw [hnew, List.nil_append] at hline
    have hwaits : request ∈ ofId guard.id (history.locks.release guard.name).waiting :=
      hline ▸ List.mem_cons_self
    obtain ⟨hwaits, hid⟩ := mem_ofId.mp hwaits
    obtain ⟨other, hother, hsame⟩ := hgrants.awaited request hwaits
    rw [hid] at hsame
    rcases List.mem_append.mp hother with hother | hother
    · obtain ⟨hother, hname⟩ := List.mem_filter.mp hother
      have hids : (history.locks.held.map LockRequest.id).Nodup :=
        List.pairwise_map.mpr h.exclusive
      obtain rfl := List.inj_on_of_nodup_map hids hother hguard hsame
      exact absurd rfl (of_decide_eq_true hname)
    · have hmem : other ∈ ofId guard.id new := mem_ofId.mpr ⟨hother, hsame⟩
      rw [hnew] at hmem
      cases hmem

/-- There is one lock for each deployment that was ever asked for. -/
theorem size (h : history.Sound) :
    history.locks.size = (history.asked.map LockRequest.id).toFinset.card := by
  have hsame : history.locks.ids.toFinset = (history.asked.map LockRequest.id).toFinset := by
    ext id
    rw [List.mem_toFinset, List.mem_toFinset, h.mem_ids]
  rw [← hsame, List.toFinset_card_of_nodup h.ids]
  rfl

/-! ## One deployment at a time -/

/-- A request changes the account of its own deployment only. -/
theorem acquire_of (h : history.Sound) (request : LockRequest) (id : String) :
    (history.next (.acquire request)).of id =
      if request.id = id then (history.of id).next (.acquire request) else history.of id := by
  unfold LockHistory.next
  rw [turn_of]
  split
  · next hid =>
    subst hid
    simp [LockHistory.of, TickLocks.acquire_of, ofId_cons_of_eq]
  · next hid =>
    rw [acquire_of_ne h.awaited hid]
    simp only [LockHistory.of, ofId_append, ofId_cons_of_ne hid, ofId_nil, List.append_nil]
    exact turn_self _

/-- Giving a request up changes the account of its own deployment only. -/
theorem release_of (h : history.Sound) {request : LockRequest}
    (hpermitted : history.Permits (.release request)) (id : String) :
    (history.next (.release request)).of id =
      if request.id = id then (history.of id).next (.release request) else history.of id := by
  rw [LockHistory.next, turn_of, TickLocks.release_of, giveUp_of]
  split
  · rfl
  · next hid =>
    -- No request for another deployment goes by this name.
    have hname (other : LockRequest) (hother : other ∈ history.asked) (hotherId : other.id = id) :
        other.name ≠ request.name := by
      intro heq
      rw [h.eq_of_name hother hpermitted heq] at hotherId
      exact hid hotherId
    have hlocks : (history.locks.of id).release request.name = history.locks.of id := by
      apply release_of_absent (h.awaited.ofId id)
      · intro guard hguard
        obtain ⟨hheld, hguardId⟩ := mem_ofId.mp hguard
        exact hname guard (h.mem_asked (.inl (h.granted_of_held hheld))) hguardId
      · intro other hother
        obtain ⟨hwaiting, hotherId⟩ := mem_ofId.mp hother
        exact hname other (h.mem_asked (.inr hwaiting)) hotherId
    rw [hlocks]
    exact turn_self _

/-- A step changes the account of its own deployment only. -/
theorem next_of (h : history.Sound) {step : LockStep} (hpermitted : history.Permits step)
    (id : String) :
    (history.next step).of id =
      if step.request.id = id then (history.of id).next step else history.of id := by
  cases step with
  | acquire request => exact h.acquire_of request id
  | release request => exact h.release_of hpermitted id

/-- The account of one deployment is that of the steps about it. -/
theorem run_of (h : history.Sound) {steps : List LockStep} (horderly : history.Orderly steps)
    (id : String) :
    (history.run steps).of id = (history.of id).run (steps.filter (·.request.id = id)) := by
  induction steps generalizing history with
  | nil => rfl
  | cons step steps ih =>
    have hrest := ih (h.next horderly.1) horderly.2
    rw [h.next_of horderly.1 id] at hrest
    rw [List.filter_cons]
    by_cases hid : step.request.id = id
    · rw [if_pos hid] at hrest
      rw [if_pos (decide_eq_true hid)]
      exact hrest
    · rw [if_neg hid] at hrest
      rw [if_neg (by simpa using hid)]
      exact hrest

end Sound

/-- Before any step the account is empty. -/
theorem start_sound : start.Sound where
  guards := by simp [start, TickLocks.empty]
  exclusive := .nil
  awaited := by simp [start, TickLocks.empty, Awaited]
  inOrder := by simp [start, TickLocks.empty]
  names := List.nodup_nil
  released := by simp [start]
  withdrawn := by simp [start]
  ids := List.nodup_nil
  mem_ids := by simp [start, TickLocks.empty]

/-- However requests are made, guards given back and requests withdrawn, the locks are shared
fairly, a guard that is given back goes to the first that waits for its lock, the account of one
deployment is the one of its own steps, and there are as many locks as deployments asked for. -/
theorem run_fair (steps : List LockStep) (h : start.Orderly steps) :
    (start.run steps).Fair ∧
      (∀ guard ∈ (start.run steps).locks.held, ∀ request rest,
        ofId guard.id (start.run steps).locks.waiting = request :: rest →
          request ∈ ((start.run steps).next (.release guard)).locks.held) ∧
      (∀ id, (start.run steps).of id = start.run (steps.filter (·.request.id = id))) ∧
      (start.run steps).locks.size =
        ((start.run steps).asked.map LockRequest.id).toFinset.card := by
  have hsound := start_sound.run h
  exact ⟨hsound.toFair, fun guard hguard request rest hfirst => hsound.handover hguard hfirst,
    fun id => start_sound.run_of h id, hsound.size⟩

/-- A request is withdrawn from the middle of a line while another deployment has its lock, two
guards are given back one after the other, and a last request waits for the third. -/
theorem run_fair_withdrawal :
    let steps : List LockStep := [.acquire ⟨"a", "web"⟩, .acquire ⟨"b", "web"⟩,
      .acquire ⟨"x", "api"⟩, .acquire ⟨"c", "web"⟩, .acquire ⟨"d", "web"⟩, .release ⟨"c", "web"⟩,
      .release ⟨"a", "web"⟩, .release ⟨"b", "web"⟩, .acquire ⟨"e", "web"⟩]
    let history := start.run steps
    start.Orderly steps ∧
      history.granted = [⟨"a", "web"⟩, ⟨"x", "api"⟩, ⟨"b", "web"⟩, ⟨"d", "web"⟩] ∧
      history.released = [⟨"a", "web"⟩, ⟨"b", "web"⟩] ∧
      history.locks.held = [⟨"x", "api"⟩, ⟨"d", "web"⟩] ∧
      history.locks.held = history.granted.filter (· ∉ history.released) ∧
      ⟨"e", "web"⟩ ∈ (history.next (.release ⟨"d", "web"⟩)).locks.held ∧
      (∀ id, history.of id = start.run (steps.filter (·.request.id = id))) ∧
      history.locks.size = (history.asked.map LockRequest.id).toFinset.card := by
  intro steps history
  have horderly : start.Orderly steps := by decide
  obtain ⟨hfair, hhandover, hof, hsize⟩ := run_fair steps horderly
  exact ⟨horderly, by decide, by decide, by decide, hfair.guards,
    hhandover ⟨"d", "web"⟩ (by decide) ⟨"e", "web"⟩ [] (by decide), hof, hsize⟩

end LockHistory

end Rollout
