import Rollout.Proofs.Census
import Rollout.Proofs.TickOutcome

/-!
# What a record tells of a failure

The failures of a scheduler carry details that users must not see. A store never depends on them:
with two schedulers that differ in nothing else, any ticks leave the same stores. What is written
of a failure is the message of a violation, the reason of a refusal, or else one fixed sentence.
-/

namespace Rollout

variable {α β Rest Rest' : Type}

/-! ## Failures that differ in their details -/

/-- Two failures of a call that differ at most in what must not be shown. -/
inductive SchedulerError.Resembles : SchedulerError → SchedulerError → Prop where
  | rejected (reason : String) : Resembles (.rejected reason) (.rejected reason)
  | unavailable (detail detail' : String) : Resembles (.unavailable detail) (.unavailable detail')
  | store (e e' : StoreError) : Resembles (.store e) (.store e')

/-- Two answers to a call that are equal, or are failures that resemble each other. -/
inductive SameAnswer {A : Type} : Except SchedulerError A → Except SchedulerError A → Prop where
  | answered (a : A) : SameAnswer (.ok a) (.ok a)
  | failed {e e' : SchedulerError} (h : e.Resembles e') : SameAnswer (.error e) (.error e')

/-- Two failures of a tick that differ at most in the details of a scheduler's failure. -/
inductive TickError.Resembles : TickError → TickError → Prop where
  | same (e : TickError) : Resembles e e
  | scheduler {e e' : SchedulerError} (h : e.Resembles e') :
    Resembles (.scheduler e) (.scheduler e')

/-- Two outcomes with the same copy and the same result, or with failures that resemble each
other. -/
inductive SameOutcome : Outcome α → Outcome α → Prop where
  | succeeded (d : Deployment) (a : α) : SameOutcome (d, .ok a) (d, .ok a)
  | failed (d : Deployment) {e e' : TickError} (h : e.Resembles e') :
    SameOutcome (d, .error e) (d, .error e')

namespace TickError.Resembles

variable {e e' : TickError}

/-- Failures that resemble each other are written alike. -/
theorem persisted_eq (h : e.Resembles e') : e.persisted = e'.persisted := by
  cases h with
  | same => rfl
  | scheduler h => cases h <;> rfl

private theorem isRefusal_eq (h : e.Resembles e') : e.isRefusal = e'.isRefusal := by
  cases h <;> rfl

end TickError.Resembles

/-! ## Plans -/

/-- Two plans that make the same calls as long as the answers are the same, and come to the same
outcome. -/
inductive Plan.Resembles : Plan (Outcome α) → Plan (Outcome α) → Prop where
  | done {outcome outcome' : Outcome α} (h : SameOutcome outcome outcome') :
    Resembles (.done outcome) (.done outcome')
  | call {c : Call} {next next' : Except SchedulerError c.Answer → Plan (Outcome α)}
    (h : ∀ answer answer', SameAnswer answer answer' → Resembles (next answer) (next' answer')) :
    Resembles (.call c next) (.call c next')

/-- A plan that does not look at the details of failures. -/
def Plan.Discreet (plan : Plan (Outcome α)) : Prop :=
  plan.Resembles plan

namespace Action

variable {d : Deployment}

private theorem discreet_finish (d : Deployment) (a : α) : (finish d a).Discreet :=
  .done (.succeeded d a)

private theorem discreet_fail (d : Deployment) (e : TickError) :
    (fail d e : Plan (Outcome α)).Discreet :=
  .done (.failed d (.same e))

/-- A plan that asks is discreet if it is so after every answer. -/
theorem discreet_ask {c : Call} {next : c.Answer → Plan (Outcome α)}
    (h : ∀ answer, (next answer).Discreet) : (ask d c next).Discreet := by
  refine .call fun answer answer' hsame => ?_
  cases hsame with
  | answered answer => exact h answer
  | failed hfailure => exact .done (.failed d (.scheduler hfailure))

/-- Plans that resemble each other still do when a discreet plan follows. -/
theorem resembles_andThen {plan plan' : Plan (Outcome α)}
    {next : Deployment → α → Plan (Outcome β)} (h : plan.Resembles plan')
    (hnext : ∀ d a, (next d a).Discreet) :
    (andThen plan next).Resembles (andThen plan' next) := by
  induction h with
  | done h =>
    cases h with
    | succeeded d a => exact hnext d a
    | failed d h => exact .done (.failed d h)
  | call _ ih => exact .call ih

/-- Discreet plans one after another are discreet. -/
theorem discreet_andThen {plan : Plan (Outcome α)} {next : Deployment → α → Plan (Outcome β)}
    (h : plan.Discreet) (hnext : ∀ d a, (next d a).Discreet) : (andThen plan next).Discreet :=
  resembles_andThen h hnext

end Action

open Rollout.Action

private theorem discreet_scaleNew (policy : StepPolicy) (goal : ScaleGoal) (retired : Bool)
    (d : Deployment) : (scaleNew policy goal retired d).Discreet := by
  unfold scaleNew
  split
  · exact discreet_finish _ _
  · split
    · exact discreet_finish _ _
    · exact discreet_ask fun _ => discreet_finish _ _

/-- A scale step is discreet. -/
theorem discreet_scaleStep (policy : StepPolicy) (goal : ScaleGoal) (d : Deployment) :
    (scaleStep policy goal d).Discreet := by
  unfold scaleStep
  split
  · exact discreet_fail _ _
  · refine discreet_ask fun health => ?_
    split
    · dsimp only
      split
      · exact discreet_ask fun _ => discreet_scaleNew _ _ _ _
      · exact discreet_scaleNew _ _ _ _
    · exact discreet_finish _ _

/-- Finalizing is discreet. -/
theorem discreet_finalize (d : Deployment) : (finalize d).Discreet := by
  unfold finalize
  split
  · split
    · exact discreet_ask fun _ => discreet_finish _ _
    · exact discreet_fail _ _
  · exact discreet_fail _ _

/-- A cancel is discreet. -/
theorem discreet_cancel (d : Deployment) : (cancel d).Discreet := by
  unfold cancel
  split
  · exact discreet_finish _ _
  · exact discreet_fail _ _
  · exact discreet_ask fun _ => discreet_ask fun _ => discreet_finish _ _

/-- No action looks at the details of a failure. -/
theorem Updater.discreet_action (u : Updater) (command : Command) (d : Deployment) :
    (u.action command d).Discreet := by
  cases command with
  | scale =>
    unfold action scale
    dsimp only
    split
    · refine discreet_andThen (discreet_scaleStep _ _ _) fun d step => ?_
      split
      · exact discreet_andThen (discreet_finalize d) fun _ _ => discreet_finish _ _
      · exact discreet_finish _ _
    · exact discreet_fail _ _
  | canary =>
    unfold action canary
    dsimp only
    split
    · exact discreet_finish _ _
    · split
      · split
        · exact discreet_fail _ _
        · exact discreet_andThen (discreet_scaleStep _ _ _) fun _ _ => discreet_finish _ _
      · exact discreet_fail _ _
  | cancel => exact discreet_andThen (discreet_cancel d) fun _ _ => discreet_finish _ _

/-! ## Two schedulers -/

/-- Two worlds with the same store, whose other parts are linked. -/
structure Linked (link : Rest → Rest' → Prop) (w : Store × Rest) (w' : Store × Rest') : Prop where
  /-- The stores are the same. -/
  store : w.1 = w'.1
  /-- What is beside them is linked. -/
  rest : link w.2 w'.2

/-- Two schedulers that give the same answers and make the same changes, but for the details of
their failures. Each may keep a world of its own beside the store. -/
structure Scheduler.Resembles (s : Scheduler (Store × Rest)) (s' : Scheduler (Store × Rest'))
    (link : Rest → Rest' → Prop) : Prop where
  /-- From linked worlds they give the same answers. -/
  answers : ∀ c w w', Linked link w w' → SameAnswer (s c w).1 (s' c w').1
  /-- They leave linked worlds linked. -/
  changes : ∀ c w w', Linked link w w' → Linked link (s c w).2 (s' c w').2

variable {s : Scheduler (Store × Rest)} {s' : Scheduler (Store × Rest')}
  {link : Rest → Rest' → Prop} {w : Store × Rest} {w' : Store × Rest'}

/-- Carried out with two schedulers that resemble each other, such plans come to the same outcome
and leave the worlds linked. -/
theorem Plan.Resembles.run {plan plan' : Plan (Outcome α)} (h : plan.Resembles plan')
    (hs : s.Resembles s' link) (hw : Linked link w w') :
    SameOutcome (plan.run s w).1 (plan'.run s' w').1 ∧
      Linked link (plan.run s w).2 (plan'.run s' w').2 := by
  induction h generalizing w w' with
  | done h => exact ⟨h, hw⟩
  | call _ ih => exact ih _ _ (hs.answers _ w w' hw) (hs.changes _ w w' hw)

namespace Updater

/-- Failures that resemble each other leave the same mark. -/
theorem withFailure_congr (u : Updater) (command : Command) {e e' : TickError}
    (h : e.Resembles e') (d : Deployment) :
    u.withFailure command e d = u.withFailure command e' d := by
  rw [withFailure_eq, withFailure_eq, h.persisted_eq, h.isRefusal_eq]

/-- The details of a failure are not stored. -/
theorem recordFailure_congr (u : Updater) (store : Store) (id : String) (command : Command)
    {e e' : TickError} (h : e.Resembles e') :
    (u.recordFailure store id command e).2 = (u.recordFailure store id command e').2 := by
  cases h with
  | same => rfl
  | @scheduler e e' h =>
    have hmark : u.withFailure command (.scheduler e) = u.withFailure command (.scheduler e') :=
      funext (u.withFailure_congr command (.scheduler h))
    unfold recordFailure
    rw [hmark]
    cases store.update id (u.withFailure command (.scheduler e')) <;> rfl

/-- Outcomes that are the same leave the same store. -/
theorem settle_congr (u : Updater) (store : Store) (id : String) (command : Command)
    (before : Deployment) {outcome outcome' : Outcome Unit} (h : SameOutcome outcome outcome') :
    (u.settle store id command before outcome).2 =
      (u.settle store id command before outcome').2 := by
  cases h with
  | succeeded => rfl
  | failed d h => exact u.recordFailure_congr store id command h

/-- A tick with either scheduler leaves the same store. -/
theorem linked_tick (hs : s.Resembles s' link) (u : Updater) (id : String) (command : Command)
    (hw : Linked link w w') :
    Linked link (u.tick s id command w).2 (u.tick s' id command w').2 := by
  unfold tick
  rw [← hw.store]
  cases read w.1 id with
  | error e => exact ⟨rfl, hw.rest⟩
  | ok before =>
    obtain ⟨houtcome, hmade⟩ := (u.discreet_action command before).run hs hw
    refine ⟨?_, hmade.rest⟩
    dsimp only
    rw [← hmade.store]
    exact u.settle_congr _ id command before houtcome

end Updater

/-! ## Ticks one after another -/

/-- A tick that is to be made. -/
structure DueTick where
  updater : Updater
  id : String
  command : Command

/-- The worlds after each of the ticks that are made one after another. -/
def afterEach (scheduler : Scheduler (Store × Rest)) :
    List DueTick → Store × Rest → List (Store × Rest)
  | [], _ => []
  | first :: later, w =>
    let next := (first.updater.tick scheduler first.id first.command w).2
    next :: afterEach scheduler later next

/-- Two schedulers that resemble each other leave the same store after each of any ticks. -/
theorem stores_afterEach (hs : s.Resembles s' link) (due : List DueTick)
    (hw : Linked link w w') :
    (afterEach s due w).map Prod.fst = (afterEach s' due w').map Prod.fst := by
  induction due generalizing w w' with
  | nil => rfl
  | cons first later ih =>
    have hnext := Updater.linked_tick hs first.updater first.id first.command hw
    exact congrArg₂ List.cons hnext.store (ih hnext)

/-! ## What is written of a failure -/

namespace TickError

/-- The text that stands for a failure on a record. -/
inductive Tells : TickError → String → Prop where
  | nothing {e : TickError} (h : e.classify = .internal) : Tells e unexpected
  | violation (v : Violation) : Tells (.violation v) v.message
  | refusal (reason : String) : Tells (.scheduler (.rejected reason)) reason

/-- What is written of a failure stands for it. -/
theorem tells_persisted (e : TickError) : e.Tells e.persisted := by
  cases e with
  | violation v => exact .violation v
  | scheduler e =>
    cases e with
    | rejected reason => exact .refusal reason
    | unavailable | store => exact .nothing rfl
  | store | notFound => exact .nothing rfl

end TickError

/-- Every violation is told in words that begin with another letter than the fixed sentence. -/
theorem Violation.head?_message (v : Violation) :
    v.message.toList.head? = some 'C' ∨ v.message.toList.head? = some 'D' := by
  cases v with
  | noCanary =>
    right
    change "Deployment has no canary configured".toList.head? = _
    simp
  | wrongPhase =>
    left
    change ("Cannot " ++ _ ++ _ ++ _).toList.head? = _
    simp
  | capExceedsTarget =>
    left
    change ("Canary instance target " ++ _ ++ _ ++ _).toList.head? = _
    simp
  | notConverged =>
    left
    change ("Cannot finalize deployment with " ++ _ ++ _ ++ _ ++ _).toList.head? = _
    simp

/-- No violation has the fixed sentence as its message. -/
theorem Violation.message_ne (v : Violation) : v.message ≠ TickError.unexpected := by
  intro heq
  have hfirst : TickError.unexpected.toList.head? = some 'A' := by simp [TickError.unexpected]
  have hmessage := v.head?_message
  rw [heq, hfirst] at hmessage
  simp at hmessage

/-- The fixed sentence stands for internal failures. A refusal may happen to be made in the same
words. -/
theorem TickError.persisted_eq_unexpected_iff (e : TickError) :
    e.persisted = unexpected ↔
      e.classify = .internal ∨ e = .scheduler (.rejected unexpected) := by
  cases e with
  | violation v =>
    have hne : ¬(violation v).persisted = unexpected := v.message_ne
    exact iff_of_false hne (by simp [classify])
  | scheduler e =>
    cases e with
    | rejected reason =>
      have hreason : (scheduler (.rejected reason)).persisted = reason := rfl
      rw [hreason]
      simp [classify]
    | unavailable | store => exact iff_of_true rfl (Or.inl rfl)
  | store | notFound => exact iff_of_true rfl (Or.inl rfl)

namespace Updater

variable {u : Updater} {scheduler : Scheduler (Store × Rest)} {id : String} {command : Command}

/-- What a tick writes in the end: nothing, its copy with the error that it has read, or the text
of its failure. -/
inductive Writes (u : Updater) (scheduler : Scheduler (Store × Rest)) (id : String)
    (command : Command) (w : Store × Rest) : Prop where
  | nothing (hstore : (u.tick scheduler id command w).2.1 = (u.midway scheduler id command w).1) :
    Writes u scheduler id command w
  | copy {before written : Deployment} (hread : w.1.deployment id = .ok before)
    (hreport : (u.tick scheduler id command w).1 = .committed written)
    (herror : written.error = before.error)
    (hstore : (u.tick scheduler id command w).2.1 =
      (u.midway scheduler id command w).1.overwrite written.id written) :
    Writes u scheduler id command w
  | failure {e : TickError} {text : String} {marked : Deployment}
    (hreport : (u.tick scheduler id command w).1 = .failed e none)
    (htells : e.Tells text)
    (hfixed : text = TickError.unexpected ↔
      e.classify = .internal ∨ e = .scheduler (.rejected TickError.unexpected))
    (herror : marked.error = some text)
    (hstore : (u.tick scheduler id command w).2.1 =
      (u.midway scheduler id command w).1.overwrite id marked) : Writes u scheduler id command w

/-- A tick that ends with a failure writes no more than its text. -/
theorem writes_of_failure {e : TickError}
    (htick : u.tick scheduler id command w =
      ((u.recordFailure (u.midway scheduler id command w).1 id command e).1,
        (u.recordFailure (u.midway scheduler id command w).1 id command e).2,
        (u.midway scheduler id command w).2)) : u.Writes scheduler id command w := by
  by_cases hnone : ∀ d, (u.midway scheduler id command w).1.deployment id ≠ .ok d
  · obtain ⟨unsaved, hunsaved⟩ := recordFailure_of_error u command hnone e
    rw [hunsaved] at htick
    exact .nothing (by rw [htick])
  · by_cases hmissing : ∃ missing, e = .notFound missing
    · obtain ⟨missing, rfl⟩ := hmissing
      exact .nothing (by rw [htick]; rfl)
    · simp only [ne_eq, not_forall, not_not] at hnone
      obtain ⟨d, hd⟩ := hnone
      rw [recordFailure_of_ok u command hd fun missing heq => hmissing ⟨missing, heq⟩] at htick
      have herror := (u.failureMark command e d).error
      exact .failure (by rw [htick]) e.tells_persisted e.persisted_eq_unexpected_iff herror
        (by rw [htick])

/-- Whatever the scheduler does, a tick writes no error text but that of its own failure. -/
theorem writes (u : Updater) (scheduler : Scheduler (Store × Rest)) (id : String)
    (command : Command) (w : Store × Rest) : u.Writes scheduler id command w := by
  cases hread : read w.1 id with
  | error e =>
    apply writes_of_failure (e := e)
    rw [midway_of_error u scheduler command hread]
    exact tick_of_error u scheduler command hread
  | ok before =>
    have hread := read_eq_ok_iff.mp hread
    have htick := tick_of_read u scheduler command hread
    have hruns := (u.action command before).runs_trace scheduler w
    have hdraft := (tickCourse_of_runs hruns).draft
    generalize ((u.action command before).run scheduler w).1 = outcome at htick hdraft
    obtain ⟨copy, result⟩ := outcome
    cases result with
    | error e => exact writes_of_failure htick
    | ok =>
      by_cases hsame : copy = before
      · have hsettle (store : Store) :
            u.settle store id command before (copy, .ok ()) = (.unchanged copy, store) :=
          if_pos hsame
        rw [hsettle] at htick
        exact .nothing (by rw [htick])
      · rcases (u.midway scheduler id command w).1.commit_cases (d := { copy with
            updatedAt := u.now }) rfl before.revision with ⟨e, hcommit⟩ | ⟨_, _, _, hcommit⟩
        · rw [settle_of_conflict u command hsame hcommit] at htick
          exact writes_of_failure htick
        · rw [settle_of_commit u command hsame hcommit] at htick
          have hreport := congrArg Prod.fst htick
          exact .copy hread hreport hdraft.error (by rw [htick])

end Updater

/-! ## Any sequence of ticks -/

/-- With two schedulers that differ at most in the details of their failures, each of any ticks
leaves the same store. No tick writes an error text but that of its own failure, and this is the
fixed sentence, the message of a violation or the reason of a refusal. It is the fixed sentence
just for internal failures, unless a refusal gives this sentence as its reason. -/
theorem internals_hidden (hs : s.Resembles s' link) {store : Store} {rest : Rest} {rest' : Rest'}
    (hlink : link rest rest') (due : List DueTick) :
    (afterEach s due (store, rest)).map Prod.fst =
        (afterEach s' due (store, rest')).map Prod.fst ∧
      ∀ (u : Updater) (id : String) (command : Command) (w : Store × Rest),
        u.Writes s id command w :=
  ⟨stores_afterEach hs due ⟨rfl, hlink⟩, fun u id command w => u.writes s id command w⟩

/-- A scheduler of numbers that does what it is asked and then fails all the same, with a
detail. -/
def Scheduler.breaking (detail : String) : Scheduler (Store × (String × String → UInt32))
  | .query appId version, w => counting (.query appId version) w
  | .setCount appId version count, w =>
    (.error (.unavailable detail), (counting (.setCount appId version count) w).2)
  | .remove appId version, w =>
    (.error (.store (.write detail)), (counting (.remove appId version) w).2)

/-- Schedulers that fail with different details resemble each other. -/
theorem Scheduler.breaking_resembles (detail detail' : String) :
    (breaking detail).Resembles (breaking detail') Eq where
  answers c w w' hw := by
    obtain rfl : w = w' := Prod.ext hw.store hw.rest
    cases c with
    | query => exact .answered _
    | setCount => exact .failed (.unavailable detail detail')
    | remove => exact .failed (.store _ _)
  changes c w w' hw := by
    obtain rfl : w = w' := Prod.ext hw.store hw.rest
    cases c <;> exact ⟨rfl, rfl⟩

/-- A scale tick and a cancel, each with a call that fails. -/
theorem internals_hidden_after_cancel :
    let d := Deployment.begin .canaryOfOne 0
    let w := (Store.empty.write d, Request.canaryOfOne.counts)
    let s := Scheduler.breaking "10.0.0.7 refused the connection"
    let s' := Scheduler.breaking "no answer within 5 s"
    let due : List DueTick := [⟨⟨.fixed 1, 1⟩, d.id, .scale⟩, ⟨⟨.fixed 1, 2⟩, d.id, .cancel⟩]
    s.Resembles s' Eq ∧
      (afterEach s due w).map Prod.fst = (afterEach s' due w).map Prod.fst ∧
      ∀ (u : Updater) (id : String) (command : Command) (w : Store × (String × String → UInt32)),
        u.Writes s id command w := by
  intro d w s s' due
  have hs : s.Resembles s' Eq := Scheduler.breaking_resembles _ _
  exact ⟨hs, internals_hidden hs rfl due⟩

/-- A scheduler that refuses in the words of the fixed sentence. The record then shows this
sentence, though the failure is not an internal one. -/
theorem Updater.refused_in_fixed_words :
    let d := Deployment.begin .canaryOfOne 0
    let scheduler : Scheduler (Store × Unit) := fun _ w =>
      (.error (.rejected "An unexpected error has occurred."), w)
    let after := tick ⟨.fixed 1, 5⟩ scheduler d.id .scale (Store.empty.write d, ())
    ∃ e text marked, after.1 = .failed e none ∧ after.2.1.deployment d.id = .ok marked ∧
      marked.error = some text ∧ ¬(text = TickError.unexpected ↔ e.classify = .internal) := by
  intro d scheduler after
  let e : TickError := .scheduler (.rejected "An unexpected error has occurred.")
  let u : Updater := ⟨.fixed 1, 5⟩
  have hread : (Store.empty.write d).deployment d.id = .ok d :=
    (Store.empty.holds_write d).deployment
  have hrun (store : Store) : (u.action .scale d).run scheduler (store, ()) =
      ((d.setPhase .deploying, .error e), (store, ())) := rfl
  have hafter : after = (.failed e none,
      (Store.empty.write d).overwrite d.id (u.withFailure .scale e d).nextRevision, ()) := by
    have htick := tick_of_read u scheduler .scale (w := (Store.empty.write d, ())) hread
    rw [midway_of_read u scheduler .scale hread, hrun] at htick
    refine htick.trans ?_
    have hsettle (store : Store) : u.settle store d.id .scale d (d.setPhase .deploying, .error e) =
        u.recordFailure store d.id .scale e := rfl
    rw [hsettle, recordFailure_of_ok u .scale hread (by simp [e])]
  refine ⟨e, _, _, congrArg Prod.fst hafter, ?_, (u.failureMark .scale e d).error, ?_⟩
  · rw [hafter]
    exact Store.deployment_overwrite _ _ _
  · intro hiff
    cases hiff.mp rfl

end Rollout
