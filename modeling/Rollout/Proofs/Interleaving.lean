import Rollout.Proofs.DriverRun

/-!
# Interleaved ticks

Ticks and operator requests for one deployment, in any order and in one another's way. A tick is
taken apart into the steps between which others may write the record: the reading, each answer of
the scheduler, the commit and, after a failure, the writing of the failure. Whatever others do,
a commit goes through only on the record that the tick has read.
-/

namespace Rollout

/-- How far a tick has come: its plan is still to be carried out, or its failure to be written. -/
inductive OpenTick.Stage where
  | planned (plan : Plan (Outcome Unit))
  | failing (e : TickError)

/-- A tick that has read the record and has not ended yet. -/
structure OpenTick where
  /-- The policy and the clock of the tick. -/
  updater : Updater
  /-- What the tick is to do. -/
  command : Command
  /-- The record that it has read. -/
  before : Deployment
  /-- How often the record had been written when the tick read it. -/
  since : Nat
  /-- How far it has come. -/
  stage : OpenTick.Stage

/-- A store with the ticks that are under way for one deployment. -/
structure Site where
  /-- The store that all of them share. -/
  store : Store
  /-- The ticks under way. -/
  ticks : List OpenTick
  /-- How often the record has been written. -/
  writes : Nat

/-- Who makes a step. -/
inductive Site.Actor where
  | tick
  | cancelRequest
  | promotion
  | bystander
  deriving DecidableEq

namespace Site

/-- The steps of a site. Any number of ticks may be under way, with any commands and any answers.
A call may change everything but the record. Revisions are counted in 64 bits, so a tick must not
commit after exactly so many writes that they come round. -/
inductive Step (id : String) : Actor → Site → Site → Prop where
  | begin {s : Site} (u : Updater) (command : Command) {before : Deployment}
    (hread : Updater.read s.store id = .ok before) :
    Step id .tick s { s with
      ticks := ⟨u, command, before, s.writes, .planned (u.action command before)⟩ :: s.ticks }
  | answer {s : Site} (earlier later : List OpenTick) {t : OpenTick} {c : Call}
    {next : Except SchedulerError c.Answer → Plan (Outcome Unit)} {store : Store}
    (hticks : s.ticks = earlier ++ t :: later) (hstage : t.stage = .planned (.call c next))
    (answer : Except SchedulerError c.Answer)
    (hstore : store.deployments.get? id = s.store.deployments.get? id) :
    Step id .tick s { s with
      store := store
      ticks := earlier ++ { t with stage := .planned (next answer) } :: later }
  | unchanged {s : Site} (earlier later : List OpenTick) {t : OpenTick}
    (hticks : s.ticks = earlier ++ t :: later)
    (hstage : t.stage = .planned (.done (t.before, .ok ()))) :
    Step id .tick s { s with ticks := earlier ++ later }
  | commit {s : Site} (earlier later : List OpenTick) {t : OpenTick} {d written : Deployment}
    {store : Store} (hticks : s.ticks = earlier ++ t :: later)
    (hstage : t.stage = .planned (.done (d, .ok ()))) (hchanged : d ≠ t.before)
    (hfew : s.writes < t.since + UInt64.size)
    (hcommit : s.store.commit { d with updatedAt := t.updater.now } t.before.revision =
      .ok (written, store)) :
    Step id .tick s { store := store, ticks := earlier ++ later, writes := s.writes + 1 }
  | conflict {s : Site} (earlier later : List OpenTick) {t : OpenTick} {d : Deployment}
    {e : StoreError} (hticks : s.ticks = earlier ++ t :: later)
    (hstage : t.stage = .planned (.done (d, .ok ()))) (hchanged : d ≠ t.before)
    (hcommit : s.store.commit { d with updatedAt := t.updater.now } t.before.revision =
      .error e) :
    Step id .tick s { s with
      ticks := earlier ++ { t with stage := .failing (.store e) } :: later }
  | fail {s : Site} (earlier later : List OpenTick) {t : OpenTick} {d : Deployment}
    {e : TickError} (hticks : s.ticks = earlier ++ t :: later)
    (hstage : t.stage = .planned (.done (d, .error e))) :
    Step id .tick s { s with ticks := earlier ++ { t with stage := .failing e } :: later }
  | record {s : Site} (earlier later : List OpenTick) {t : OpenTick} {e : TickError}
    (hticks : s.ticks = earlier ++ t :: later) (hstage : t.stage = .failing e) :
    Step id .tick s {
      store := (t.updater.recordFailure s.store id t.command e).2
      ticks := earlier ++ later
      writes := s.writes + 1 }
  | cancelRequest (s : Site) :
    Step id .cancelRequest s { s with
      store := (Operator.requestCancel s.store id).2
      writes := s.writes + 1 }
  | promotion (s : Site) :
    Step id .promotion s { s with
      store := (Operator.promote s.store id).2
      writes := s.writes + 1 }
  | bystander {s : Site} {store : Store}
    (hstore : store.deployments.get? id = s.store.deployments.get? id) :
    Step id .bystander s { s with store := store }

/-- Steps one after another. -/
inductive Steps (id : String) : Site → Site → Prop where
  | refl (s : Site) : Steps id s s
  | step {s s' s'' : Site} {actor : Actor} (hsteps : Steps id s s')
    (hstep : Step id actor s' s'') : Steps id s s''

private theorem Steps.trans {id : String} {s s' s'' : Site} (h : Steps id s s')
    (h' : Steps id s' s'') :
    Steps id s s'' := by
  induction h' with
  | refl => exact h
  | step _ hstep ih => exact ih.step hstep

end Site

/-! ## What holds of a tick under way -/

/-- Two counts of writes that are less than a round apart have different revisions. -/
theorem ofNat_ne_of_lt {since writes : Nat} (hstale : since < writes)
    (hfew : writes < since + UInt64.size) : UInt64.ofNat writes ≠ UInt64.ofNat since := by
  intro h
  have hnat := congrArg UInt64.toNat h
  simp only [UInt64.toNat_ofNat'] at hnat
  rw [UInt64.size] at hfew
  omega

namespace OpenTick

/-- What a stage can still lead to is something that the tick's action could have led to. -/
def Sensible (t : OpenTick) : Prop :=
  match t.stage with
  | .planned plan => ∀ (trace : List (Exchange Unit)) outcome, plan.Runs trace outcome →
    ∃ whole : List (Exchange Unit), (t.updater.action t.command t.before).Runs whole outcome
  | .failing e => ∀ missing, e ≠ .notFound missing

/-- What holds of a tick under way, while the record has been written so often. -/
structure Sound (id : String) (d : Deployment) (writes : Nat) (t : OpenTick) : Prop where
  /-- It has read the record under its id. -/
  own : t.before.id = id
  /-- It has read it some writes ago. -/
  since_le : t.since ≤ writes
  /-- The revision that it has read is the number of writes there had been. -/
  revision : t.before.revision = UInt64.ofNat t.since
  /-- As long as nobody has written the record, it is the one that was read. -/
  current : t.since = writes → t.before = d
  /-- What it is about to do is a part of its action. -/
  sensible : t.Sensible

variable {id : String} {store : Store} {d d' copy : Deployment} {writes : Nat} {t : OpenTick}

/-- A write leaves everything but the hope that the record is still the same. -/
theorem Sound.overtaken (h : t.Sound id d writes) : t.Sound id d' (writes + 1) where
  own := h.own
  since_le := Nat.le_succ_of_le h.since_le
  revision := h.revision
  current hsame := absurd h.since_le (by omega)
  sensible := h.sensible

/-- A tick under way may go on to any stage that its action could have led to. -/
theorem Sound.withStage (h : t.Sound id d writes) {stage : Stage}
    (hsensible : Sensible { t with stage := stage }) :
    Sound id d writes { t with stage := stage } :=
  ⟨h.own, h.since_le, h.revision, h.current, hsensible⟩

/-- A plan that has been carried out is a course of the tick's action. -/
theorem Sensible.runs {outcome : Outcome Unit} (h : t.Sensible)
    (hstage : t.stage = .planned (.done outcome)) :
    ∃ trace : List (Exchange Unit), (t.updater.action t.command t.before).Runs trace outcome := by
  unfold Sensible at h
  rw [hstage] at h
  exact h [] outcome (.done outcome)

/-- A tick that has carried out its plan has taken one of its courses. -/
theorem Sensible.course {outcome : Outcome Unit} (h : t.Sensible)
    (hstage : t.stage = .planned (.done outcome)) :
    ∃ trace : List (Exchange Unit),
      TickCourse t.updater t.before t.command trace outcome := by
  obtain ⟨trace, hruns⟩ := h.runs hstage
  exact ⟨trace, tickCourse_of_runs hruns⟩

/-- Any answer to a call leads to something that the action could have led to. -/
theorem Sensible.answer {c : Call} {next : Except SchedulerError c.Answer → Plan (Outcome Unit)}
    (h : t.Sensible) (hstage : t.stage = .planned (.call c next))
    (answer : Except SchedulerError c.Answer) :
    Sensible { t with stage := .planned (next answer) } := by
  unfold Sensible at h
  rw [hstage] at h
  intro trace outcome hruns
  exact h (⟨c, answer, ()⟩ :: trace) outcome (.call hruns)

/-- The copy that a tick commits has the id of its record. -/
theorem Sound.id_copy (h : t.Sound id d writes)
    (hstage : t.stage = .planned (.done (copy, .ok ()))) :
    { copy with updatedAt := t.updater.now }.id = id := by
  obtain ⟨trace, hcourse⟩ := h.sensible.course hstage
  exact (congrArg Terms.id hcourse.terms_eq).trans h.own

/-- A tick that nobody has overtaken commits its copy. -/
theorem Sound.commit_of_current (h : t.Sound id d writes) (hheld : store.Holds id d)
    (hcurrent : t.since = writes) (hstage : t.stage = .planned (.done (copy, .ok ()))) :
    store.commit { copy with updatedAt := t.updater.now } t.before.revision =
      .ok ({ copy with updatedAt := t.updater.now, revision := d.revision + 1 },
        store.write { copy with updatedAt := t.updater.now, revision := d.revision + 1 }) := by
  rw [h.current hcurrent]
  exact hheld.commit_eq_ok (h.id_copy hstage)

/-- A tick that has been overtaken cannot commit. -/
theorem Sound.commit_of_stale (h : t.Sound id d writes) (hheld : store.Holds id d)
    (hrevision : d.revision = UInt64.ofNat writes) (hstale : t.since < writes)
    (hfew : writes < t.since + UInt64.size)
    (hstage : t.stage = .planned (.done (copy, .ok ()))) :
    store.commit { copy with updatedAt := t.updater.now } t.before.revision =
      .error (.conflict id (UInt64.ofNat t.since) (UInt64.ofNat writes)) := by
  have hne : d.revision ≠ t.before.revision := by
    rw [hrevision, h.revision]
    exact ofNat_ne_of_lt hstale hfew
  rw [hheld.commit_eq_conflict (h.id_copy hstage) hne, hrevision, h.revision]

private theorem Sound.ne_notFound {e : TickError} (h : t.Sound id d writes)
    (hstage : t.stage = .failing e) (missing : String) : e ≠ .notFound missing := by
  have hsensible := h.sensible
  unfold Sensible at hsensible
  rw [hstage] at hsensible
  exact hsensible missing

/-- A tick that has failed writes no more than its failure. -/
theorem Sound.recordFailure_eq {e : TickError} (h : t.Sound id d writes) (hheld : store.Holds id d)
    (hstage : t.stage = .failing e) :
    (t.updater.recordFailure store id t.command e).2 =
      store.write (t.updater.withFailure t.command e d).nextRevision :=
  Updater.recordFailure_eq_write _ _ hheld (h.ne_notFound hstage)

end OpenTick

/-- An action does not fail for want of the record. -/
theorem ScaleCourse.ne_notFound {World : Type} {policy : StepPolicy} {goal : ScaleGoal}
    {d d' : Deployment} {trace : List (Exchange World)} {e : TickError}
    (h : ScaleCourse policy goal d trace (d', .error e)) (missing : String) :
    e ≠ .notFound missing := by
  cases h with
  | refused | unanswered | unretired => simp
  | stepped _ _ _ _ _ hmoving =>
    cases hmoving
    simp

/-- The action of a tick never fails because a record is missing. -/
theorem TickCourse.ne_notFound {World : Type} {u : Updater} {d d' : Deployment}
    {command : Command} {trace : List (Exchange World)} {e : TickError}
    (h : TickCourse u d command trace (d', .error e)) (missing : String) :
    e ≠ .notFound missing := by
  cases h with
  | scaleFailed _ hstep | canaryFailed _ _ hstep => exact hstep.ne_notFound missing
  | _ => simp

/-! ## What a step makes of the record -/

/-- The writes of a record, with their writers. A commit is one of the record that was read. -/
inductive Rewrite (d : Deployment) : Site.Actor → Deployment → Prop where
  | kept (actor : Site.Actor) : Rewrite d actor d
  | committed {u : Updater} {command : Command} {trace : List (Exchange Unit)} {d₁ : Deployment}
    (hcourse : TickCourse u d command trace (d₁, .ok ())) :
    Rewrite d .tick { d₁ with updatedAt := u.now, revision := d.revision + 1 }
  | failed (u : Updater) (command : Command) (e : TickError) :
    Rewrite d .tick (u.withFailure command e d).nextRevision
  | canceled : Rewrite d .cancelRequest (Operator.canceled d)
  | promoted : Rewrite d .promotion (Operator.promoted d)

namespace Site

/-- What holds of a site at any time, while it has a record. -/
structure Sound (id : String) (s : Site) (d : Deployment) : Prop where
  /-- The record is in the store. -/
  held : s.store.Holds id d
  /-- Its revision is the number of writes. -/
  revision : d.revision = UInt64.ofNat s.writes
  /-- Every tick under way is sound. -/
  ticks : ∀ t ∈ s.ticks, t.Sound id d s.writes

variable {id : String} {s s' : Site} {d : Deployment} {t : OpenTick}
  {earlier later : List OpenTick} {store : Store} {stage : OpenTick.Stage}

/-- The ticks around one of the ticks under way are under way too. -/
theorem mem_around (hticks : s.ticks = earlier ++ t :: later) {other : OpenTick}
    (h : other ∈ earlier ++ later) : other ∈ s.ticks := by
  rw [hticks]
  rcases List.mem_append.mp h with h | h
  · exact List.mem_append_left _ h
  · exact List.mem_append_right _ (List.mem_cons_of_mem _ h)

namespace Sound

/-- Every tick under way is sound. -/
theorem tick (h : s.Sound id d) (hticks : s.ticks = earlier ++ t :: later) :
    t.Sound id d s.writes :=
  h.ticks t (by simp [hticks])

/-- A step of one tick that leaves the record. -/
theorem advance (h : s.Sound id d) (hticks : s.ticks = earlier ++ t :: later)
    (hsensible : OpenTick.Sensible { t with stage := stage })
    (hstore : store.deployments.get? id = s.store.deployments.get? id) :
    Sound id { s with store := store, ticks := earlier ++ { t with stage := stage } :: later }
      d := by
  refine ⟨h.held.of_get?_eq hstore, h.revision, fun other hother => ?_⟩
  rcases List.mem_append.mp hother with hother | hother
  · exact h.ticks other (mem_around hticks (List.mem_append_left _ hother))
  · rcases List.mem_cons.mp hother with rfl | hother
    · exact (h.tick hticks).withStage hsensible
    · exact h.ticks other (mem_around hticks (List.mem_append_right _ hother))

/-- A write of the record, with which ticks may end. -/
theorem write {d' : Deployment} {ticks : List OpenTick} (h : s.Sound id d) (hid : d'.id = id)
    (hrevision : d'.revision = d.revision + 1) (hticks : ∀ t ∈ ticks, t ∈ s.ticks) :
    Sound id { store := s.store.write d', ticks := ticks, writes := s.writes + 1 } d' := by
  refine ⟨s.store.holds_write_of_id hid, ?_, fun t ht => (h.ticks t (hticks t ht)).overtaken⟩
  rw [hrevision, h.revision]
  exact (UInt64.ofNat_add s.writes 1).symm

end Sound

private theorem revision_canceled (d : Deployment) :
    (Operator.canceled d).revision = d.revision + 1 := by
  unfold Operator.canceled Deployment.requestCancel?
  split <;> rfl

private theorem revision_promoted (d : Deployment) :
    (Operator.promoted d).revision = d.revision + 1 := by
  unfold Operator.promoted Deployment.promote?
  split <;> rfl

private theorem revision_withFailure (u : Updater) (command : Command) (e : TickError)
    (d : Deployment) :
    (u.withFailure command e d).nextRevision.revision = d.revision + 1 := by
  rw [Updater.withFailure_eq]
  dsimp only [Deployment.nextRevision]
  split <;> rfl

/-- A commit that has gone through has written the copy over the record that was read. -/
theorem Sound.commit {d₁ written : Deployment} (h : s.Sound id d)
    (hticks : s.ticks = earlier ++ t :: later)
    (hstage : t.stage = .planned (.done (d₁, .ok ()))) (hfew : s.writes < t.since + UInt64.size)
    (hcommit : s.store.commit { d₁ with updatedAt := t.updater.now } t.before.revision =
      .ok (written, store)) :
    ∃ d', Sound id { store := store, ticks := earlier ++ later, writes := s.writes + 1 } d' ∧
      Rewrite d .tick d' := by
  have htick := h.tick hticks
  rcases Nat.lt_or_eq_of_le htick.since_le with hstale | hcurrent
  · rw [htick.commit_of_stale h.held h.revision hstale hfew hstage] at hcommit
    cases hcommit
  · rw [htick.commit_of_current h.held hcurrent hstage] at hcommit
    obtain ⟨-, rfl⟩ := Prod.mk.inj (Except.ok.inj hcommit)
    obtain ⟨trace, hcourse⟩ := htick.sensible.course hstage
    rw [htick.current hcurrent] at hcourse
    exact ⟨_, h.write (htick.id_copy hstage) rfl fun t ht => mem_around hticks ht,
      .committed hcourse⟩

/-- Every step keeps the site sound, and changes the record only by a write of its actor. -/
theorem Step.sound {actor : Actor} (hstep : Step id actor s s') (h : s.Sound id d) :
    ∃ d', s'.Sound id d' ∧ Rewrite d actor d' := by
  cases hstep with
  | begin u command hread =>
    obtain rfl : d = _ := Except.ok.inj ((Updater.read_eq_ok h.held).symm.trans hread)
    refine ⟨d, ⟨h.held, h.revision, fun t ht => ?_⟩, .kept _⟩
    rcases List.mem_cons.mp ht with rfl | ht
    · exact ⟨h.held.own, Nat.le_refl _, h.revision, fun _ => rfl,
        fun trace outcome hruns => ⟨trace, hruns⟩⟩
    · exact h.ticks t ht
  | answer _ _ hticks hstage answer hstore =>
    exact ⟨d, h.advance hticks ((h.tick hticks).sensible.answer hstage answer) hstore, .kept _⟩
  | unchanged _ _ hticks hstage =>
    exact ⟨d, ⟨h.held, h.revision, fun t ht => h.ticks t (mem_around hticks ht)⟩, .kept _⟩
  | commit _ _ hticks hstage hchanged hfew hcommit => exact h.commit hticks hstage hfew hcommit
  | @conflict s earlier later t d₁ e hticks hstage hchanged hcommit =>
    have hsensible : OpenTick.Sensible { t with stage := .failing (.store e) } := by
      intro missing
      simp
    exact ⟨d, h.advance hticks hsensible rfl, .kept _⟩
  | fail _ _ hticks hstage =>
    obtain ⟨trace, hcourse⟩ := (h.tick hticks).sensible.course hstage
    exact ⟨d, h.advance hticks hcourse.ne_notFound rfl, .kept _⟩
  | @record s earlier later t e hticks hstage =>
    have hid := (Updater.id_withFailure t.updater t.command e d).trans h.held.own
    rw [(h.tick hticks).recordFailure_eq h.held hstage]
    exact ⟨_, h.write hid (revision_withFailure ..) fun t ht => mem_around hticks ht,
      .failed t.updater t.command e⟩
  | cancelRequest =>
    have hid := (Operator.id_canceled d).trans h.held.own
    rw [Operator.requestCancel_eq_write h.held]
    exact ⟨_, h.write hid (revision_canceled d) fun t ht => ht, .canceled⟩
  | promotion =>
    have hid := (Operator.id_promoted d).trans h.held.own
    rw [Operator.promote_eq_write h.held]
    exact ⟨_, h.write hid (revision_promoted d) fun t ht => ht, .promoted⟩
  | bystander hstore =>
    exact ⟨d, ⟨h.held.of_get?_eq hstore, h.revision, h.ticks⟩, .kept _⟩

/-- What every write keeps holds after any steps. -/
theorem Steps.sound {kept : Deployment → Prop}
    (hkeeps : ∀ d d' actor, kept d → Rewrite d actor d' → kept d') (hsteps : Steps id s s')
    (h : s.Sound id d) (hkept : kept d) : ∃ d', s'.Sound id d' ∧ kept d' := by
  induction hsteps with
  | refl => exact ⟨d, h, hkept⟩
  | step _ hstep ih =>
    obtain ⟨d₁, hd₁, hkept₁⟩ := ih
    obtain ⟨d₂, hd₂, hrewrite⟩ := hstep.sound hd₁
    exact ⟨d₂, hd₂, hkeeps _ _ _ hkept₁ hrewrite⟩

/-! ## A tick on its own -/

section

variable {Rest : Type} {scheduler : Scheduler (Store × Rest)}

/-- A scheduler that carries out the plan of a tick makes one step after another. -/
theorem steps_run (hspares : scheduler.Spares id) (t : OpenTick) (ticks : List OpenTick)
    (writes : Nat) (plan : Plan (Outcome Unit)) (w : Store × Rest) :
    Steps id ⟨w.1, { t with stage := .planned plan } :: ticks, writes⟩
      ⟨(plan.run scheduler w).2.1,
        { t with stage := .planned (.done (plan.run scheduler w).1) } :: ticks, writes⟩ := by
  induction plan generalizing w with
  | done outcome => exact .refl _
  | call c next ih =>
    let asking : OpenTick := { t with stage := .planned (.call c next) }
    have hticks : (⟨w.1, asking :: ticks, writes⟩ : Site).ticks = [] ++ asking :: ticks := rfl
    have hanswer := (Steps.refl _).step (.answer [] ticks hticks rfl (scheduler c w).1
      (hspares c w))
    exact hanswer.trans (ih _ _)

/-- A tick that nobody gets in the way of is made of these steps. -/
theorem steps_tick (hspares : scheduler.Spares id) (u : Updater) (command : Command)
    (ticks : List OpenTick) (writes : Nat) {w : Store × Rest} (hd : w.1.Holds id d) :
    ∃ writes', Steps id ⟨w.1, ticks, writes⟩
      ⟨(u.tick scheduler id command w).2.1, ticks, writes'⟩ := by
  let t (stage : OpenTick.Stage) : OpenTick := ⟨u, command, d, writes, stage⟩
  have hbegin := (Steps.refl ⟨w.1, ticks, writes⟩).step
    (.begin u command (Updater.read_eq_ok hd))
  have hplan := hbegin.trans
    (steps_run hspares (t (.planned (u.action command d))) ticks writes (u.action command d) w)
  simp only [Updater.tick, Updater.read_eq_ok hd]
  generalize (u.action command d).run scheduler w = result at hplan
  obtain ⟨⟨d₁, outcome⟩, w'⟩ := result
  have hrecord (e : TickError) : Steps id ⟨w'.1, t (.failing e) :: ticks, writes⟩
      ⟨(u.recordFailure w'.1 id command e).2, ticks, writes + 1⟩ :=
    (Steps.refl _).step (.record (t := t (.failing e)) [] ticks rfl rfl)
  cases outcome with
  | error e =>
    have hfail := hplan.step (.fail [] ticks rfl rfl)
    exact ⟨_, hfail.trans (hrecord e)⟩
  | ok _ =>
    simp only [Updater.settle]
    by_cases hsame : d₁ = d
    · subst hsame
      rw [if_pos rfl]
      exact ⟨_, hplan.step (.unchanged [] ticks rfl rfl)⟩
    · rw [if_neg hsame]
      cases hcommit : w'.1.commit { d₁ with updatedAt := u.now } d.revision with
      | ok result =>
        have hfew : writes < writes + UInt64.size := Nat.lt_add_of_pos_right (by decide)
        exact ⟨_, hplan.step (.commit [] ticks rfl rfl hsame hfew hcommit)⟩
      | error e =>
        have hconflict := hplan.step (.conflict [] ticks rfl rfl hsame hcommit)
        exact ⟨_, hconflict.trans (hrecord (.store e))⟩

end

end Site

end Rollout
