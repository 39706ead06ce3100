import Rollout.Proofs.Interleaving

/-!
# The phases of a deployment

The phase of a stored record moves only along a few edges, whoever writes it and in whatever
order. A cancel request is never lost, and a terminal record keeps everything but the traces of
failures. The status always follows from the phase.
-/

namespace Rollout

/-- Where a phase may move in one write. -/
def Phase.mayBecome : Phase → Phase → Bool
  | .deploying, _ | .failed, _ => true
  | .paused, next => next = .paused || next = .deploying || next = .canceling || next = .canceled
  | .canceling, next => next = .canceling || next = .canceled
  | .deployed, next => next = .deployed
  | .canceled, next => next = .canceled

/-- A phase may stay. -/
theorem Phase.mayBecome_self (phase : Phase) : phase.mayBecome phase = true := by
  cases phase <;> rfl

/-- A phase in progress may become any other. -/
theorem Phase.mayBecome_of_isInProgress {phase : Phase} (h : phase.isInProgress = true)
    (next : Phase) : phase.mayBecome next = true := by
  cases phase <;> simp [isInProgress] at h <;> rfl

/-- What is in progress has not ended. -/
theorem Phase.isTerminal_eq_false {phase : Phase} (h : phase.isInProgress = true) :
    phase.isTerminal = false := by
  cases phase <;> simp [isInProgress] at h <;> rfl

/-- The status is the one that belongs to the phase. -/
structure Deployment.StatusFits (d : Deployment) : Prop where
  /-- The value belongs to the phase. -/
  value : d.statusValue = d.phase.statusValue
  /-- The reason belongs to it too. -/
  reason : d.statusReason = d.phase.statusReason

/-- The record without the fields that failures and refused requests write. -/
def Deployment.lasting (d : Deployment) : Deployment :=
  { d with error := none, revision := 0, updatedAt := 0 }

/-- The status fits after a phase has been set. -/
theorem Deployment.statusFits_setPhase (d : Deployment) (phase : Phase) :
    (d.setPhase phase).StatusFits :=
  ⟨rfl, rfl⟩

/-! ## Commits -/

/-- What a tick that does not fail may commit: nothing, a step of a rollout in progress, or the
end of a cancel. -/
inductive Commit (d : Deployment) : Deployment → Prop where
  | nothing : Commit d d
  | progress {d' : Deployment} (hactive : d.phase.isInProgress = true) (hstatus : d'.StatusFits) :
    Commit d d'
  | canceled {d' : Deployment} (hactive : d.phase.isTerminal = false) (hstatus : d'.StatusFits)
    (hphase : d'.phase = .canceled) : Commit d d'

/-- A scale step leaves a status that fits. -/
theorem ScaleCourse.statusFits {World : Type} {policy : StepPolicy} {goal : ScaleGoal}
    {d : Deployment} {phase : Phase} {trace : List (Exchange World)} {outcome : Outcome ScaleStep}
    (h : ScaleCourse policy goal (d.setPhase phase) trace outcome) : outcome.1.StatusFits := by
  obtain ⟨deploying, stable, heq⟩ := h.exists_eq
  rw [heq]
  exact ⟨rfl, rfl⟩

/-- What a canary tick does after its step leaves a status that fits. -/
theorem Updater.statusFits_afterCanaryStep (u : Updater) (c : Canary) (step : ScaleStep)
    {d : Deployment} (h : d.StatusFits) : (u.afterCanaryStep c step d).StatusFits := by
  unfold afterCanaryStep
  split
  · exact Deployment.statusFits_setPhase _ _
  · split
    · exact ⟨h.value, h.reason⟩
    · exact h

/-- A tick that does not fail commits nothing, a step of a rollout in progress, or a cancel. -/
theorem TickCourse.commit {World : Type} {u : Updater} {d d' : Deployment} {command : Command}
    {trace : List (Exchange World)} (h : TickCourse u d command trace (d', .ok ())) :
    Commit d d' := by
  cases h with
  | scaled hactive hstep => exact .progress hactive hstep.statusFits
  | finalized hactive => exact .progress hactive (Deployment.statusFits_setPhase _ _)
  | canaried hactive _ hstep =>
    exact .progress hactive (u.statusFits_afterCanaryStep _ _ hstep.statusFits)
  | canceled hactive => exact .canceled hactive (Deployment.statusFits_setPhase _ _) rfl
  | canaryIdle | cancelIdle => exact .nothing

/-! ## Writes -/

section

variable {d d' : Deployment} {actor : Site.Actor}

/-- A failure leaves the record or moves it while it is in progress. -/
theorem Updater.withFailure_cases (u : Updater) (command : Command) (e : TickError)
    (d : Deployment) :
    ((u.withFailure command e d).nextRevision.lasting = d.lasting) ∨
      (d.phase.isInProgress = true ∧ (u.withFailure command e d).nextRevision.StatusFits) := by
  rw [withFailure_eq]
  by_cases h : (!e.isRefusal && d.phase.isInProgress) = true
  · rw [if_pos h]
    exact Or.inr ⟨(Bool.and_eq_true_iff.mp h).2, ⟨rfl, rfl⟩⟩
  · rw [if_neg h]
    exact Or.inl rfl

/-- What a write does to the lasting part of a record: it stays, or it moves while the phase is
not terminal, and then the status fits again. -/
inductive PhaseMove (d : Deployment) : Site.Actor → Deployment → Prop where
  | stays (actor : Site.Actor) {d' : Deployment} (h : d'.lasting = d.lasting) :
    PhaseMove d actor d'
  | progress {d' : Deployment} (hactive : d.phase.isInProgress = true) (hstatus : d'.StatusFits) :
    PhaseMove d .tick d'
  | canceled {d' : Deployment} (hactive : d.phase.isTerminal = false) (hstatus : d'.StatusFits)
    (hphase : d'.phase = .canceled) : PhaseMove d .tick d'
  | cancelRequest {d' : Deployment} (hactive : d.phase.isTerminal = false)
    (hstatus : d'.StatusFits) (hphase : d'.phase = .canceling) : PhaseMove d .cancelRequest d'
  | promotion {d' : Deployment} (hpaused : d.phase = .paused) (hstatus : d'.StatusFits)
    (hphase : d'.phase = .deploying) : PhaseMove d .promotion d'

/-- Every write, whoever makes it, is a move of the phase. -/
theorem Rewrite.phaseMove (h : Rewrite d actor d') : PhaseMove d actor d' := by
  cases h with
  | kept => exact .stays _ rfl
  | committed hcourse =>
    cases hcourse.commit with
    | nothing => exact .stays _ rfl
    | progress hactive hstatus => exact .progress hactive ⟨hstatus.value, hstatus.reason⟩
    | canceled hactive hstatus hphase =>
      exact .canceled hactive ⟨hstatus.value, hstatus.reason⟩ hphase
  | failed u command e =>
    rcases u.withFailure_cases command e d with hsame | ⟨hactive, hstatus⟩
    · exact .stays _ hsame
    · exact .progress hactive hstatus
  | canceled =>
    unfold Operator.canceled Deployment.requestCancel?
    split
    · exact .stays _ rfl
    · next hactive => exact .cancelRequest (by simpa using hactive) ⟨rfl, rfl⟩ rfl
  | promoted =>
    unfold Operator.promoted Deployment.promote?
    split
    · next hpaused => exact .promotion hpaused ⟨rfl, rfl⟩ rfl
    · exact .stays _ rfl

/-- Records with the same lasting part differ at most in what failures and refused requests write.
-/
theorem Deployment.eq_of_lasting (h : d'.lasting = d.lasting) : d' =
    { d with error := d'.error, revision := d'.revision, updatedAt := d'.updatedAt } := by
  have hrest : { d'.lasting with
      error := d'.error, revision := d'.revision, updatedAt := d'.updatedAt } =
      { d.lasting with
        error := d'.error, revision := d'.revision, updatedAt := d'.updatedAt } := by
    rw [h]
  exact hrest

private theorem phase_of_lasting (h : d'.lasting = d.lasting) : d'.phase = d.phase := by
  have hphase := congrArg Deployment.phase h
  exact hphase

namespace PhaseMove

/-- After a move the status fits if it did before. -/
theorem statusFits (h : PhaseMove d actor d') (hfits : d.StatusFits) : d'.StatusFits := by
  cases h with
  | stays _ hsame =>
    have hphase := phase_of_lasting hsame
    have hvalue := congrArg Deployment.statusValue hsame
    have hreason := congrArg Deployment.statusReason hsame
    constructor
    · rw [hphase]
      exact hvalue.trans hfits.value
    · rw [hphase]
      exact hreason.trans hfits.reason
  | progress _ hstatus | canceled _ hstatus | cancelRequest _ hstatus | promotion _ hstatus =>
    exact hstatus

/-- A move takes the phase along an edge. -/
theorem mayBecome (h : PhaseMove d actor d') : d.phase.mayBecome d'.phase = true := by
  cases h with
  | stays _ hsame =>
    rw [phase_of_lasting hsame]
    exact Phase.mayBecome_self _
  | progress hactive => exact Phase.mayBecome_of_isInProgress hactive _
  | canceled hactive _ hphase | cancelRequest hactive _ hphase =>
    rw [hphase]
    cases hd : d.phase <;> simp [hd, Phase.isTerminal] at hactive <;> rfl
  | promotion hpaused _ hphase =>
    rw [hpaused, hphase]
    rfl

/-- Only a promotion releases a paused deployment. -/
theorem promotion_of_paused (h : PhaseMove d actor d') (hpaused : d.phase = .paused)
    (hdeploying : d'.phase = .deploying) : actor = .promotion := by
  cases h with
  | stays _ hsame => simp [phase_of_lasting hsame, hpaused] at hdeploying
  | progress hactive => simp [hpaused, Phase.isInProgress] at hactive
  | canceled _ _ hphase | cancelRequest _ _ hphase => simp [hphase] at hdeploying
  | promotion => rfl

/-- A record that has ended keeps its lasting part. -/
theorem lasting_eq (h : PhaseMove d actor d') (hterminal : d.phase.isTerminal = true) :
    d'.lasting = d.lasting := by
  cases h with
  | stays _ hsame => exact hsame
  | progress hactive => simp [Phase.isTerminal_eq_false hactive] at hterminal
  | canceled hactive | cancelRequest hactive => simp [hactive] at hterminal
  | promotion hpaused => simp [hpaused, Phase.isTerminal] at hterminal

/-- A cancel is never taken back. -/
theorem stays_canceled (h : PhaseMove d actor d')
    (hcancel : d.phase = .canceling ∨ d.phase = .canceled) :
    d'.phase = .canceling ∨ d'.phase = .canceled := by
  have hmay := h.mayBecome
  rcases hcancel with heq | heq
  · simpa [heq, Phase.mayBecome] using hmay
  · right
    simpa [heq, Phase.mayBecome] using hmay

end PhaseMove

/-- What a later record keeps of an earlier one, whatever has been written in between. -/
structure Outlasts (d d' : Deployment) : Prop where
  /-- A cancel request stays until it has been carried out. -/
  canceling : d.phase = .canceling → d'.phase = .canceling ∨ d'.phase = .canceled
  /-- What has ended stays as it is, but for what failures and refused requests write. -/
  terminal : d.phase.isTerminal = true → d'.lasting = d.lasting

private theorem Outlasts.refl (d : Deployment) : Outlasts d d :=
  ⟨fun hcanceling => Or.inl hcanceling, fun _ => rfl⟩

/-- What a later record keeps is kept through one more move. -/
theorem Outlasts.move {d'' : Deployment} (h : Outlasts d d') (hmove : PhaseMove d' actor d'') :
    Outlasts d d'' := by
  refine ⟨fun hcanceling => hmove.stays_canceled (h.canceling hcanceling), fun hterminal => ?_⟩
  have hsame := h.terminal hterminal
  have hterminal' : d'.phase.isTerminal = true := by rwa [phase_of_lasting hsame]
  exact (hmove.lasting_eq hterminal').trans hsame

end

/-- A tick that reads a terminal record makes no call. -/
theorem Updater.action_of_terminal (u : Updater) (command : Command) {d : Deployment}
    (h : d.phase.isTerminal = true) : ∃ outcome, u.action command d = .done outcome := by
  have hinactive : ¬d.phase.isInProgress = true := fun hactive => by
    simp [Phase.isTerminal_eq_false hactive] at h
  have hpaused : d.phase ≠ .paused := fun heq => by simp [heq, Phase.isTerminal] at h
  cases command with
  | scale =>
    simp only [action, scale, if_neg hinactive]
    exact ⟨_, rfl⟩
  | canary =>
    simp only [action, canary, if_neg hpaused, if_neg hinactive]
    exact ⟨_, rfl⟩
  | cancel =>
    simp only [action, Rollout.cancel]
    cases hphase : d.phase with
    | deployed => exact ⟨_, rfl⟩
    | canceled => exact ⟨_, rfl⟩
    | deploying | paused | canceling | failed => simp [hphase, Phase.isTerminal] at h

/-! ## Any order of steps -/

namespace Site

/-- Whatever ticks and operators do to a new deployment, and in whatever order: the status fits
the phase, the phase moves only where it may, a cancel is never lost, and a terminal record keeps
everything but the error, the revision and the time of the last write. A tick that reads a
terminal record makes no call. -/
theorem phase_automaton {request : Request} {now : UInt64} {d₀ : Deployment}
    {store created : Store} {s : Site} (hnew : Deployment.new request now = .ok d₀)
    (hcreate : store.create d₀ = .ok created) (hsteps : Steps d₀.id ⟨created, [], 0⟩ s) :
    ∃ d, s.store.deployment d₀.id = .ok d ∧
      (d.statusValue = d.phase.statusValue ∧ d.statusReason = d.phase.statusReason) ∧
      (∀ actor s', Step d₀.id actor s s' → ∃ d', s'.store.deployment d₀.id = .ok d' ∧
        d.phase.mayBecome d'.phase = true ∧
        (d.phase = .paused → d'.phase = .deploying → actor = .promotion)) ∧
      (∀ s', Steps d₀.id s s' → ∃ d', s'.store.deployment d₀.id = .ok d' ∧
        (d.phase = .canceling → d'.phase = .canceling ∨ d'.phase = .canceled) ∧
        (d.phase.isTerminal = true → d' =
          { d with error := d'.error, revision := d'.revision, updatedAt := d'.updatedAt })) ∧
      (d.phase.isTerminal = true →
        ∀ u command, ∃ outcome, Updater.action u command d = .done outcome) := by
  obtain ⟨hbegin, -⟩ := Deployment.new_eq_ok hnew
  have hstart : Sound d₀.id ⟨created, [], 0⟩ d₀ :=
    ⟨Store.holds_create hcreate, by rw [hbegin]; rfl, by simp⟩
  have hfits₀ : d₀.StatusFits := by
    rw [hbegin]
    exact ⟨rfl, rfl⟩
  obtain ⟨d, hd, hfits⟩ := hsteps.sound
    (fun _ _ _ hfits hrewrite => hrewrite.phaseMove.statusFits hfits) hstart hfits₀
  refine ⟨d, hd.held.deployment, ⟨hfits.value, hfits.reason⟩, ?_, ?_, ?_⟩
  · intro actor s' hstep
    obtain ⟨d', hd', hrewrite⟩ := hstep.sound hd
    have hmove := hrewrite.phaseMove
    exact ⟨d', hd'.held.deployment, hmove.mayBecome, hmove.promotion_of_paused⟩
  · intro s' hsteps'
    obtain ⟨d', hd', houtlasts⟩ := hsteps'.sound
      (fun _ _ _ houtlasts hrewrite => houtlasts.move hrewrite.phaseMove) hd (Outlasts.refl d)
    exact ⟨d', hd'.held.deployment, houtlasts.canceling, fun hterminal =>
      Deployment.eq_of_lasting (houtlasts.terminal hterminal)⟩
  · intro hterminal u command
    exact u.action_of_terminal command hterminal

/-- A scale tick has begun when a cancel is asked for. -/
theorem phase_automaton_overtaken :
    let d₀ := Deployment.begin ⟨"shop-2", "shop", "2", "1", 3, 2, none⟩ 0
    let u : Updater := ⟨.fixed 1, 1⟩
    let begun : Site := ⟨Store.empty.write d₀,
      [⟨u, .scale, d₀, 0, .planned (u.action .scale d₀)⟩], 0⟩
    let s : Site := ⟨(Operator.requestCancel begun.store d₀.id).2, begun.ticks, 1⟩
    ∃ d, s.store.deployment d₀.id = .ok d ∧
      (d.statusValue = d.phase.statusValue ∧ d.statusReason = d.phase.statusReason) ∧
      (∀ actor s', Step d₀.id actor s s' → ∃ d', s'.store.deployment d₀.id = .ok d' ∧
        d.phase.mayBecome d'.phase = true ∧
        (d.phase = .paused → d'.phase = .deploying → actor = .promotion)) ∧
      (∀ s', Steps d₀.id s s' → ∃ d', s'.store.deployment d₀.id = .ok d' ∧
        (d.phase = .canceling → d'.phase = .canceling ∨ d'.phase = .canceled) ∧
        (d.phase.isTerminal = true → d' =
          { d with error := d'.error, revision := d'.revision, updatedAt := d'.updatedAt })) ∧
      (d.phase.isTerminal = true →
        ∀ u command, ∃ outcome, Updater.action u command d = .done outcome) := by
  intro d₀ u begun s
  have hread : Updater.read (Store.empty.write d₀) d₀.id = .ok d₀ :=
    Updater.read_eq_ok (Store.empty.holds_write d₀)
  have hbegun : Steps d₀.id ⟨Store.empty.write d₀, [], 0⟩ begun :=
    (Steps.refl _).step (.begin u .scale hread)
  have hnew : Deployment.new ⟨"shop-2", "shop", "2", "1", 3, 2, none⟩ 0 = .ok d₀ := rfl
  have hcreate : Store.empty.create d₀ = .ok begun.store := rfl
  exact phase_automaton hnew hcreate (hbegun.step (.cancelRequest begun))

end Site

end Rollout
