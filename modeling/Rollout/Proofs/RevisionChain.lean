import Mathlib.Data.List.Chain
import Rollout.Proofs.TickOutcome

/-!
# The chain of revisions

The records that are stored one after another, whatever ticks and operators do in whatever order.
Each has the next revision and is made from the one before it: by the commit of a tick that has
read just that record, by a failure that is written on it, or by an operator. A commit of a tick
that has read an older record is refused.
-/

namespace Rollout

/-- How a stored record replaces another. -/
inductive Link (d : Deployment) : Deployment → Prop where
  | commit {u : Updater} {command : Command} {trace : List (Exchange Unit)} {copy : Deployment}
    (hruns : (u.action command d).Runs trace (copy, .ok ())) (hchanged : copy ≠ d) :
    Link d { copy with updatedAt := u.now, revision := d.revision + 1 }
  | failure {u : Updater} {command : Command} {e : TickError} {marked : Deployment}
    (hmark : FailureMark u command e d marked) : Link d marked
  | cancelRequest : Link d (Operator.canceled d)
  | promotion : Link d (Operator.promoted d)

/-- A store has at most one record under an id. -/
theorem Store.Holds.unique {store : Store} {id : String} {d d' : Deployment}
    (h : store.Holds id d) (h' : store.Holds id d') : d' = d :=
  Except.ok.inj (h'.deployment.symm.trans h.deployment)

namespace Site

variable {id : String} {s s' : Site} {d d' : Deployment} {actor : Actor}

/-! ## Steps that write -/

/-- A step writes the record once or not at all. -/
theorem Step.writes_cases (hstep : Step id actor s s') :
    s'.writes = s.writes ∨ s'.writes = s.writes + 1 := by
  cases hstep with
  | commit | record | cancelRequest | promotion => exact Or.inr rfl
  | _ => exact Or.inl rfl

/-- A step that does not write leaves the record. -/
theorem Step.eq_of_writes (hstep : Step id actor s s') (h : s.Sound id d) (h' : s'.Sound id d')
    (hwrites : s'.writes = s.writes) : d' = d := by
  cases hstep with
  | begin | unchanged | conflict | fail => exact h.held.unique h'.held
  | answer _ _ _ _ _ hstore | bystander hstore => exact (h.held.of_get?_eq hstore).unique h'.held
  | commit | record | cancelRequest | promotion => exact absurd hwrites (Nat.succ_ne_self _)

/-- A site whose store has just been written has the written record. -/
theorem Sound.eq_of_write {store : Store} {written : Deployment} (h : s.Sound id d)
    (hstore : s.store = store.write written) (hid : written.id = id) : d = written := by
  have hheld := h.held
  rw [hstore] at hheld
  exact (store.holds_write_of_id hid).unique hheld

/-- A step that writes makes the new record from the one before it. -/
theorem Step.link (hstep : Step id actor s s') (h : s.Sound id d) (h' : s'.Sound id d')
    (hwrites : s'.writes = s.writes + 1) : Link d d' := by
  cases hstep with
  | @commit _ earlier later t copy written store hticks hstage hchanged hfew hcommit =>
    have htick := h.tick hticks
    rcases Nat.lt_or_eq_of_le htick.since_le with hstale | hcurrent
    · rw [htick.commit_of_stale h.held h.revision hstale hfew hstage] at hcommit
      cases hcommit
    · rw [htick.commit_of_current h.held hcurrent hstage] at hcommit
      obtain ⟨-, hstore⟩ := Prod.mk.inj (Except.ok.inj hcommit)
      obtain ⟨trace, hruns⟩ := htick.sensible.runs hstage
      rw [htick.current hcurrent] at hruns hchanged
      rw [h'.eq_of_write hstore.symm (htick.id_copy hstage)]
      exact .commit hruns hchanged
  | @record _ earlier later t e hticks hstage =>
    have hstore := (h.tick hticks).recordFailure_eq h.held hstage
    have hid := (Updater.id_withFailure t.updater t.command e d).trans h.held.own
    rw [h'.eq_of_write hstore hid]
    exact .failure (t.updater.failureMark t.command e d)
  | cancelRequest =>
    have hstore := Operator.requestCancel_eq_write h.held
    rw [h'.eq_of_write hstore ((Operator.id_canceled d).trans h.held.own)]
    exact .cancelRequest
  | promotion =>
    have hstore := Operator.promote_eq_write h.held
    rw [h'.eq_of_write hstore ((Operator.id_promoted d).trans h.held.own)]
    exact .promotion
  | _ => exact absurd hwrites.symm (Nat.succ_ne_self _)

private theorem mem_staged {earlier later : List OpenTick} {t t' : OpenTick}
    {stage : OpenTick.Stage} (hticks : s.ticks = earlier ++ t :: later)
    (ht' : t' ∈ earlier ++ { t with stage := stage } :: later) :
    ∃ t ∈ s.ticks, t.before = t'.before ∧ t.since = t'.since := by
  rcases List.mem_append.mp ht' with ht' | ht'
  · exact ⟨t', mem_around hticks (List.mem_append_left _ ht'), rfl, rfl⟩
  · rcases List.mem_cons.mp ht' with rfl | ht'
    · exact ⟨t, by simp [hticks], rfl, rfl⟩
    · exact ⟨t', mem_around hticks (List.mem_append_right _ ht'), rfl, rfl⟩

/-- A tick that is under way after a step has been so before, or has just read the record. -/
theorem Step.mem_ticks (hstep : Step id actor s s') {t' : OpenTick} (ht' : t' ∈ s'.ticks) :
    (∃ t ∈ s.ticks, t.before = t'.before ∧ t.since = t'.since) ∨
      t'.since = s.writes ∧ s.store.deployment id = .ok t'.before := by
  cases hstep with
  | begin u command hread =>
    rcases List.mem_cons.mp ht' with rfl | ht'
    · exact Or.inr ⟨rfl, Updater.read_eq_ok_iff.mp hread⟩
    · exact Or.inl ⟨t', ht', rfl, rfl⟩
  | answer _ _ hticks | conflict _ _ hticks | fail _ _ hticks =>
    exact Or.inl (mem_staged hticks ht')
  | unchanged _ _ hticks | commit _ _ hticks | record _ _ hticks =>
    exact Or.inl ⟨t', mem_around hticks ht', rfl, rfl⟩
  | cancelRequest | promotion | bystander => exact Or.inl ⟨t', ht', rfl, rfl⟩

/-! ## Histories -/

/-- Steps one after another, with the records that they have written. -/
inductive History (id : String) : Site → List Deployment → Site → Prop where
  | start (s : Site) : History id s [] s
  | quiet {s s' s'' : Site} {actor : Actor} {written : List Deployment}
    (h : History id s written s') (hstep : Step id actor s' s'')
    (hwrites : s''.writes = s'.writes) : History id s written s''
  | write {s s' s'' : Site} {actor : Actor} {written : List Deployment} {d : Deployment}
    (h : History id s written s') (hstep : Step id actor s' s'')
    (hwrites : s''.writes = s'.writes + 1) (hd : s''.store.deployment id = .ok d) :
    History id s (written ++ [d]) s''

/-- All steps have a history. -/
theorem Steps.history (hsteps : Steps id s s') (h : s.Sound id d) :
    ∃ written, History id s written s' := by
  suffices hsound : ∃ d' written, s'.Sound id d' ∧ History id s written s' by
    obtain ⟨d', written, -, hhistory⟩ := hsound
    exact ⟨written, hhistory⟩
  induction hsteps with
  | refl => exact ⟨d, [], h, .start _⟩
  | step _ hstep ih =>
    obtain ⟨d₁, written, hd₁, hhistory⟩ := ih
    obtain ⟨d₂, hd₂, -⟩ := hstep.sound hd₁
    rcases hstep.writes_cases with hsame | hnext
    · exact ⟨d₂, written, hd₂, hhistory.quiet hstep hsame⟩
    · exact ⟨d₂, written ++ [d₂], hd₂, hhistory.write hstep hnext hd₂.held.deployment⟩

/-- Records that have been stored one after another, with the last one in the store. Each has as
its revision the number of writes before it, and is made from the one before it. A tick under way
has read the record that was stored when it began. -/
structure Chain (records : List Deployment) (s : Site) (d : Deployment) : Prop where
  /-- There is one record more than there were writes. -/
  length : records.length = s.writes + 1
  /-- The last one is in the store. -/
  latest : records[s.writes]? = some d
  /-- Each has as its revision the number of writes before it. -/
  revision : ∀ (k : Nat) (d : Deployment), records[k]? = some d → d.revision = UInt64.ofNat k
  /-- Each is made from the one before it. -/
  links : records.IsChain Link
  /-- A tick under way has read the record that was stored when it began. -/
  reads : ∀ t ∈ s.ticks, records[t.since]? = some t.before

variable {records : List Deployment}

/-- A chain begins with the record that is there before any write. -/
theorem Chain.start (h : s.Sound id d) (hwrites : s.writes = 0) (hticks : s.ticks = []) :
    Chain [d] s d where
  length := by simp [hwrites]
  latest := by simp [hwrites]
  revision k d' hk := by
    obtain ⟨rfl, rfl⟩ : k = 0 ∧ d = d' := by simpa [List.getElem?_singleton] using hk
    rw [h.revision, hwrites]
  links := List.isChain_singleton d
  reads t ht := by simp [hticks] at ht

/-- The last record of a chain is the last of its list. -/
theorem Chain.getLast?_eq (h : Chain records s d) : records.getLast? = some d := by
  rw [List.getLast?_eq_getElem?, h.length, Nat.add_sub_cancel, h.latest]

/-- What a tick has read is in the chain after any step. -/
theorem Chain.reads_step (h : Chain records s d) (hstep : Step id actor s s') (hd : s.Sound id d) :
    ∀ t ∈ s'.ticks, records[t.since]? = some t.before := by
  intro t' ht'
  rcases hstep.mem_ticks ht' with ⟨t, ht, hbefore, hsince⟩ | ⟨hsince, hread⟩
  · rw [← hbefore, ← hsince]
    exact h.reads t ht
  · rw [hsince, h.latest, Except.ok.inj (hd.held.deployment.symm.trans hread)]

/-- A step that writes nothing leaves the chain. -/
theorem Chain.quiet (h : Chain records s d) (hstep : Step id actor s s') (hd : s.Sound id d)
    (hwrites : s'.writes = s.writes) : Chain records s' d where
  length := by rw [hwrites, h.length]
  latest := by rw [hwrites, h.latest]
  revision := h.revision
  links := h.links
  reads := h.reads_step hstep hd

/-- A step that writes the record makes the chain longer by that record. -/
theorem Chain.write (h : Chain records s d) (hstep : Step id actor s s') (hd : s.Sound id d)
    (hd' : s'.Sound id d') (hwrites : s'.writes = s.writes + 1) :
    Chain (records ++ [d']) s' d' where
  length := by rw [List.length_append, h.length, hwrites, List.length_singleton]
  latest := by rw [hwrites, ← h.length, List.getElem?_concat_length]
  revision k d₁ hk := by
    rw [List.getElem?_append] at hk
    split at hk
    · exact h.revision k d₁ hk
    · next hlength =>
      obtain ⟨hzero, rfl⟩ : k - records.length = 0 ∧ d' = d₁ := by
        simpa [List.getElem?_singleton] using hk
      have hlen := h.length
      obtain rfl : k = s'.writes := by omega
      exact hd'.revision
  links := by
    refine List.isChain_append.mpr ⟨h.links, List.isChain_singleton d', ?_⟩
    intro d₁ hd₁ d₂ hd₂
    obtain rfl := Option.some.inj (h.getLast?_eq.symm.trans hd₁)
    obtain rfl := Option.some.inj hd₂
    exact hstep.link hd hd' hwrites
  reads t ht := by
    have hread := h.reads_step hstep hd t ht
    obtain ⟨hlt, -⟩ := List.getElem?_eq_some_iff.mp hread
    rw [List.getElem?_append_left hlt, hread]

/-- A history that goes on from a chain makes it longer. -/
theorem History.chain {written : List Deployment} (h : History id s written s')
    (hd : s.Sound id d) (hchain : Chain records s d) :
    ∃ d', s'.Sound id d' ∧ Chain (records ++ written) s' d' := by
  induction h with
  | start => exact ⟨d, hd, by rwa [List.append_nil]⟩
  | quiet _ hstep hwrites ih =>
    obtain ⟨d₁, hd₁, hchain₁⟩ := ih
    obtain ⟨d₂, hd₂, -⟩ := hstep.sound hd₁
    obtain rfl := hstep.eq_of_writes hd₁ hd₂ hwrites
    exact ⟨d₂, hd₂, hchain₁.quiet hstep hd₁ hwrites⟩
  | write _ hstep hwrites hd₂ ih =>
    obtain ⟨d₁, hd₁, hchain₁⟩ := ih
    obtain ⟨d₂, hsound₂, -⟩ := hstep.sound hd₁
    obtain rfl := Except.ok.inj (hd₂.symm.trans hsound₂.held.deployment)
    rw [← List.append_assoc]
    exact ⟨_, hsound₂, hchain₁.write hstep hd₁ hsound₂ hwrites⟩

/-! ## No lost update -/

/-- What a tick under way can still do to the record. If nobody has written since it read, it
commits what it has made of the stored record. Otherwise its commit is a conflict, which leaves
the store as it is to the writing of the failure, and that changes nothing else of the record. -/
structure Guarded (id : String) (s : Site) (d : Deployment) (t : OpenTick) : Prop where
  /-- If nobody has written since, the tick commits what it has made of the stored record. -/
  current : ∀ copy, t.stage = .planned (.done (copy, .ok ())) → t.since = s.writes →
    t.before = d ∧
    (∃ trace : List (Exchange Unit),
      (t.updater.action t.command d).Runs trace (copy, .ok ())) ∧
    s.store.commit { copy with updatedAt := t.updater.now } t.before.revision =
      .ok ({ copy with updatedAt := t.updater.now, revision := d.revision + 1 },
        s.store.write { copy with updatedAt := t.updater.now, revision := d.revision + 1 })
  /-- If somebody has, the commit is a conflict, and the tick goes on to write that. -/
  stale : ∀ copy, t.stage = .planned (.done (copy, .ok ())) → t.since < s.writes →
    s.writes < t.since + UInt64.size →
    s.store.commit { copy with updatedAt := t.updater.now } t.before.revision =
      .error (.conflict id t.before.revision d.revision) ∧
    (copy ≠ t.before → t.updater.settle s.store id t.command t.before (copy, .ok ()) =
      t.updater.recordFailure s.store id t.command
        (.store (.conflict id t.before.revision d.revision)))
  /-- A failure is written as a mark on the record as it now stands. -/
  failing : ∀ e, t.stage = .failing e →
    ∃ marked, FailureMark t.updater t.command e d marked ∧
      (t.updater.recordFailure s.store id t.command e).2 = s.store.write marked

/-- What any tick under way can still do to the record is guarded. -/
theorem Sound.guarded (h : s.Sound id d) {t : OpenTick} (ht : t ∈ s.ticks) :
    Guarded id s d t where
  current copy hstage hcurrent := by
    have htick := h.ticks t ht
    have hread := htick.current hcurrent
    have hruns := htick.sensible.runs hstage
    rw [hread] at hruns
    exact ⟨hread, hruns, htick.commit_of_current h.held hcurrent hstage⟩
  stale copy hstage hstale hfew := by
    have htick := h.ticks t ht
    have hcommit := htick.commit_of_stale h.held h.revision hstale hfew hstage
    rw [← htick.revision, ← h.revision] at hcommit
    exact ⟨hcommit, fun hchanged => Updater.settle_of_conflict _ _ hchanged hcommit⟩
  failing e hstage :=
    ⟨_, t.updater.failureMark t.command e d, (h.ticks t ht).recordFailure_eq h.held hstage⟩

/-- Whatever ticks and operators do to a new deployment, and in whatever order, the records that
they store are a chain: the next one always has the next revision and is made from the one that it
replaces. A tick commits only over the record that it has read, and otherwise writes no more than
its failure. -/
theorem no_lost_update {request : Request} {now : UInt64} {d₀ : Deployment}
    {store created : Store} (hnew : Deployment.new request now = .ok d₀)
    (hcreate : store.create d₀ = .ok created) :
    (∀ s, Steps d₀.id ⟨created, [], 0⟩ s →
      ∃ written, History d₀.id ⟨created, [], 0⟩ written s) ∧
    ∀ s written, History d₀.id ⟨created, [], 0⟩ written s →
      ∃ d, s.store.deployment d₀.id = .ok d ∧ Chain (d₀ :: written) s d ∧
        ∀ t ∈ s.ticks, Guarded d₀.id s d t := by
  obtain ⟨hbegin, -⟩ := Deployment.new_eq_ok hnew
  have hstart : Sound d₀.id ⟨created, [], 0⟩ d₀ :=
    ⟨Store.holds_create hcreate, by rw [hbegin]; rfl, by simp⟩
  refine ⟨fun s hsteps => hsteps.history hstart, fun s written hhistory => ?_⟩
  obtain ⟨d, hd, hchain⟩ := hhistory.chain hstart (Chain.start hstart rfl rfl)
  exact ⟨d, hd.held.deployment, hchain, fun t ht => hd.guarded ht⟩

/-- A cancel tick has made all its calls when an operator asks for the same. -/
theorem no_lost_update_overtaken :
    let d₀ := Deployment.begin ⟨"shop-2", "shop", "2", "1", 3, 2, none⟩ 0
    let created := Store.empty.write d₀
    let copy := { d₀ with deployingInstances := 0, stableInstances := 3 }.setPhase .canceled
    let t : OpenTick := ⟨⟨.fixed 1, 1⟩, .cancel, d₀, 0, .planned (.done (copy, .ok ()))⟩
    let s : Site := ⟨(Operator.requestCancel created d₀.id).2, [t], 1⟩
    ∃ written d, History d₀.id ⟨created, [], 0⟩ written s ∧
      s.store.deployment d₀.id = .ok d ∧ Chain (d₀ :: written) s d ∧
      s.store.commit { copy with updatedAt := 1 } 0 = .error (.conflict d₀.id 0 d.revision) := by
  intro d₀ created copy t s
  have hnew : Deployment.new ⟨"shop-2", "shop", "2", "1", 3, 2, none⟩ 0 = .ok d₀ := rfl
  have hcreate : Store.empty.create d₀ = .ok created := rfl
  have hread : Updater.read created d₀.id = .ok d₀ :=
    Updater.read_eq_ok (Store.empty.holds_write d₀)
  have hbegun := (Steps.refl ⟨created, [], 0⟩).step (.begin ⟨.fixed 1, 1⟩ .cancel hread)
  have hrestored := hbegun.step (.answer [] [] rfl rfl (.ok ()) rfl)
  have hremoved := hrestored.step (.answer [] [] rfl rfl (.ok 0) rfl)
  have hsteps : Steps d₀.id ⟨created, [], 0⟩ s := hremoved.step (.cancelRequest _)
  obtain ⟨hhistories, hchains⟩ := no_lost_update hnew hcreate
  obtain ⟨written, hhistory⟩ := hhistories s hsteps
  obtain ⟨d, hd, hchain, hguarded⟩ := hchains s written hhistory
  obtain ⟨hcommit, -⟩ := (hguarded t List.mem_cons_self).stale copy rfl (by decide) (by decide)
  exact ⟨written, d, hhistory, hd, hchain, hcommit⟩

end Site

end Rollout
