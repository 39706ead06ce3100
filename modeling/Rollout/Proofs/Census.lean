import Mathlib.Logic.Function.Basic
import Rollout.Proofs.DriverRun

/-!
# Schedulers that keep their contract

How many instances of each version there really are, beside what the records say. A faithful
scheduler changes these numbers only as it is asked, but its calls may fail, with or without
having taken effect.
-/

namespace Rollout

/-- A way to count the instances of a version of an application. The records of deployments do
not matter for it. -/
abbrev Census (Rest : Type) : Type :=
  Table String → Rest → String × String → Nat

/-- How many instances there are in a world. -/
def Census.of {Rest : Type} (census : Census Rest) (w : Store × Rest) (subject : String × String) :
    Nat :=
  census w.1.instances w.2 subject

/-- The instances are counted in the instance table and in the scheduler's own state. -/
theorem Census.of_eq {Rest : Type} (census : Census Rest) {w w' : Store × Rest}
    (hinstances : w'.1.instances = w.1.instances) (hrest : w'.2 = w.2)
    (subject : String × String) : census.of w' subject = census.of w subject := by
  rw [Census.of, Census.of, hinstances, hrest]

namespace Deployment

variable {d d' : Deployment}

/-- The two versions of a rollout are different subjects. -/
theorem fresh_ne_replaced (h : d.version ≠ d.previousVersion) :
    (d.appId, d.version) ≠ (d.appId, d.previousVersion) :=
  fun heq => h (congrArg Prod.snd heq)

/-- The terms say which version is new. -/
theorem fresh_of_terms (h : d'.terms = d.terms) :
    (d'.appId, d'.version) = (d.appId, d.version) := by
  have happ : d'.appId = d.appId := congrArg Terms.appId h
  have hversion : d'.version = d.version := congrArg Terms.version h
  rw [happ, hversion]

/-- The terms say which version is replaced. -/
theorem replaced_of_terms (h : d'.terms = d.terms) :
    (d'.appId, d'.previousVersion) = (d.appId, d.previousVersion) := by
  have happ : d'.appId = d.appId := congrArg Terms.appId h
  have hprevious : d'.previousVersion = d.previousVersion := congrArg Terms.previousVersion h
  rw [happ, hprevious]

end Deployment

namespace Call

/-- The application and version that a call is about. -/
def subject : Call → String × String
  | query appId version => (appId, version)
  | setCount appId version _ => (appId, version)
  | remove appId version => (appId, version)

/-- The number of instances that a call asks for. -/
def asked? : Call → Option UInt32
  | query .. => none
  | setCount _ _ count => some count
  | remove .. => some 0

end Call

namespace Scheduler

variable {Rest : Type}

/-- The contract of a scheduler. What it reports of health plays no part in it. -/
structure Faithful (scheduler : Scheduler (Store × Rest)) (census : Census Rest) : Prop where
  /-- No call touches the records of deployments. -/
  spares : ∀ c w, (scheduler c w).2.1.deployments = w.1.deployments
  /-- A call changes no other version than the one it is about. -/
  others : ∀ c w subject, subject ≠ c.subject →
    census.of (scheduler c w).2 subject = census.of w subject
  /-- A call that asks for no number changes none. -/
  asks : ∀ c w, c.asked? = none → census.of (scheduler c w).2 c.subject = census.of w c.subject
  /-- A call that is answered has brought the version to the number that it asks for. -/
  done : ∀ c w count answer, c.asked? = some count → (scheduler c w).1 = .ok answer →
    census.of (scheduler c w).2 c.subject = count.toNat
  /-- A failure leaves open whether the call has taken effect. -/
  failed : ∀ c w count e, c.asked? = some count → (scheduler c w).1 = .error e →
    census.of (scheduler c w).2 c.subject = count.toNat ∨
      census.of (scheduler c w).2 c.subject = census.of w c.subject

variable {scheduler : Scheduler (Store × Rest)} {census : Census Rest}

/-- A faithful scheduler spares every deployment record. -/
theorem Faithful.spares_id (h : scheduler.Faithful census) (id : String) : scheduler.Spares id :=
  fun c w => congrArg (·.get? id) (h.spares c w)

/-- Whether a call fails or not, it has its effect or none. -/
theorem Faithful.asked_or_same (h : scheduler.Faithful census) (c : Call) (w : Store × Rest) :
    (∃ count, c.asked? = some count ∧ census.of (scheduler c w).2 c.subject = count.toNat) ∨
      census.of (scheduler c w).2 c.subject = census.of w c.subject := by
  cases hasked : c.asked? with
  | none => exact Or.inr (h.asks c w hasked)
  | some count =>
    cases hanswer : (scheduler c w).1 with
    | ok answer => exact Or.inl ⟨count, rfl, h.done c w count answer hasked hanswer⟩
    | error e =>
      rcases h.failed c w count e hasked hanswer with hdone | hsame
      · exact Or.inl ⟨count, rfl, hdone⟩
      · exact Or.inr hsame

/-- A count that was set is the count there is. -/
theorem Faithful.of_setCount (h : scheduler.Faithful census) {appId version : String}
    {count : UInt32} {w w' : Store × Rest}
    (heq : scheduler (.setCount appId version count) w = (.ok (), w')) :
    census.of w' (appId, version) = count.toNat := by
  have hdone := h.done (.setCount appId version count) w count () rfl (congrArg Prod.fst heq)
  rwa [heq] at hdone

/-- A call about one version leaves the others. -/
theorem Faithful.of_other (h : scheduler.Faithful census) {c : Call} {w : Store × Rest}
    {answer : Except SchedulerError c.Answer} {w' : Store × Rest}
    (heq : scheduler c w = (answer, w')) {subject : String × String} (hne : subject ≠ c.subject) :
    census.of w' subject = census.of w subject := by
  have hother := h.others c w subject hne
  rwa [heq] at hother

/-- The contract of a scheduler that also never fails. -/
structure Reliable (scheduler : Scheduler (Store × Rest)) (census : Census Rest) : Prop extends
    Faithful scheduler census where
  /-- Every call is answered. -/
  answers : ∀ c w, ∃ answer, (scheduler c w).1 = .ok answer

/-- A call to a reliable scheduler does not fail. -/
theorem Reliable.not_error (h : scheduler.Reliable census) {c : Call} {e : SchedulerError}
    {w w' : Store × Rest} (heq : scheduler c w = (.error e, w')) : False := by
  obtain ⟨answer, hanswer⟩ := h.answers c w
  rw [heq] at hanswer
  cases hanswer

/-- The contract of a scheduler that also never fails, and whose instances all run and are
healthy. -/
structure Exact (scheduler : Scheduler (Store × Rest)) (census : Census Rest) : Prop extends
    Faithful scheduler census where
  /-- Every call is answered. -/
  answers : ∀ c w, ∃ answer, (scheduler c w).1 = .ok answer
  /-- A report tells of all instances, as running and as healthy. -/
  reports : ∀ appId version w health, census.of w (appId, version) < UInt32.size →
    (scheduler (.query appId version) w).1 = .ok health →
    health.running.toNat = census.of w (appId, version) ∧
      health.healthy.toNat = census.of w (appId, version)

/-- An exact scheduler is reliable. -/
theorem Exact.reliable (h : scheduler.Exact census) : scheduler.Reliable census :=
  ⟨h.toFaithful, h.answers⟩

/-! ## A scheduler of numbers -/

/-- A scheduler that has a number for each version and no more. -/
def counting : Scheduler (Store × (String × String → UInt32))
  | .query appId version, w => (.ok ⟨w.2 (appId, version), w.2 (appId, version)⟩, w)
  | .setCount appId version count, w =>
    (.ok (), (w.1, Function.update w.2 (appId, version) count))
  | .remove appId version, w =>
    (.ok (w.2 (appId, version)), (w.1, Function.update w.2 (appId, version) 0))

/-- The numbers of such a scheduler. -/
def numbers : Census (String × String → UInt32) :=
  fun _ counts subject => (counts subject).toNat

/-- A scheduler that has a number for each version and no more is exact. -/
theorem exact_counting : counting.Exact numbers where
  spares c w := by cases c <;> rfl
  others c w subject h := by
    cases c with
    | query => rfl
    | setCount appId version count =>
      have hother : subject ≠ (appId, version) := h
      change (Function.update w.2 (appId, version) count subject).toNat = (w.2 subject).toNat
      rw [Function.update_of_ne hother]
    | remove appId version =>
      have hother : subject ≠ (appId, version) := h
      change (Function.update w.2 (appId, version) 0 subject).toNat = (w.2 subject).toNat
      rw [Function.update_of_ne hother]
  asks c w h := by
    cases c with
    | query => rfl
    | setCount | remove => cases h
  done c w count answer h hanswer := by
    cases c with
    | query => cases h
    | setCount appId version asked =>
      obtain rfl := Option.some.inj h
      change (Function.update w.2 (appId, version) asked (appId, version)).toNat = asked.toNat
      rw [Function.update_self]
    | remove appId version =>
      obtain rfl := Option.some.inj h
      change (Function.update w.2 (appId, version) 0 (appId, version)).toNat = UInt32.toNat 0
      rw [Function.update_self]
  failed c w count e h hanswer := by cases c <;> cases hanswer
  answers c w := by cases c <;> exact ⟨_, rfl⟩
  reports appId version w health h hanswer := by
    obtain rfl := Except.ok.inj hanswer
    exact ⟨rfl, rfl⟩

end Scheduler

/-! ## A small rollout -/

namespace Request

/-- Three instances are replaced by two, with a canary of one. -/
def canaryOfOne : Request :=
  ⟨"shop-2", "shop", "2", "1", 3, 2, some 1⟩

/-- As many instances as a request finds when it is made. -/
def counts (request : Request) (subject : String × String) : UInt32 :=
  if subject = (request.appId, request.previousVersion) then request.originalInstances else 0

/-- There are as many instances of the version being replaced as the request says. -/
theorem counts_previousVersion (request : Request) (store : Store) :
    Scheduler.numbers.of (store, request.counts) (request.appId, request.previousVersion) =
      request.originalInstances.toNat :=
  congrArg UInt32.toNat (if_pos rfl)

/-- There are no instances of the new version yet. -/
theorem counts_version {request : Request} (h : request.version ≠ request.previousVersion)
    (store : Store) :
    Scheduler.numbers.of (store, request.counts) (request.appId, request.version) = 0 := by
  have hne : (request.appId, request.version) ≠ (request.appId, request.previousVersion) :=
    fun heq => h (congrArg Prod.snd heq)
  exact congrArg UInt32.toNat (if_neg hne)

end Request

end Rollout
