import Rollout.Proofs.Availability
import Rollout.Proofs.Script

/-!
# Failed passes are retried without trace

A tick that fails throws its copy of the record away, but the calls that it has made stay made.
The next pass works from the old counts again. It makes the calls of the same script from the
beginning, and each of them asks for a number of instances and not for a change of it, so that
the pass comes to the same end as if nothing had failed before.
-/

namespace Rollout

/-! ## Records apart from what failures leave on them -/

namespace Deployment

/-- A record without its latest failure, its revision and its times. Whether the canary has
converged at some time stays. -/
def gist (d : Deployment) : Deployment :=
  { d with
    error := none
    revision := 0
    updatedAt := 0
    lastHealthyAt := d.lastHealthyAt.map fun _ => 0 }

/-- The gist of a record, without its phase. -/
def outline (d : Deployment) : Deployment :=
  d.gist.setPhase .deploying

variable {d d' : Deployment}

/-- The script depends on the outline of a record only. -/
theorem script_outline (d : Deployment) (policy : StepPolicy) (healthy : Bool)
    (command : Command) : d.outline.script policy healthy command =
      d.script policy healthy command := by
  cases command with
  | scale | canary | cancel => rfl

/-- The script of a tick does not depend on the failures before. -/
theorem script_of_outline (h : d'.outline = d.outline) (policy : StepPolicy) (healthy : Bool)
    (command : Command) : d'.script policy healthy command = d.script policy healthy command := by
  rw [← d'.script_outline, h, script_outline]

private theorem gist_gist (d : Deployment) : d.gist.gist = d.gist := by
  simp [gist, Function.comp_def]

/-- The gist of a step is the step of the gist. -/
theorem gist_stepped (d : Deployment) (policy : StepPolicy) (goal : ScaleGoal) (healthy : Bool) :
    (d.stepped policy goal healthy).gist = d.gist.stepped policy goal healthy := by
  cases healthy with
  | false | true => rfl

private theorem gist_finalized (d : Deployment) : d.gist.finalized.gist = d.finalized.gist := by
  simp [gist, finalized, setPhase, Function.comp_def]

private theorem gist_afterCanaryStep {u u' : Updater} (hpolicy : u'.policy = u.policy) (c : Canary)
    (step : ScaleStep) (d : Deployment) :
    (u'.afterCanaryStep c step d.gist).gist = (u.afterCanaryStep c step d).gist := by
  unfold Updater.afterCanaryStep
  rw [hpolicy]
  split
  · rfl
  · split
    · simp [gist, Function.comp_def]
    · exact d.gist_gist

/-- What a tick comes to depends on the outline of a record only, up to its gist. -/
theorem gist_ticked_outline {u u' : Updater} (hpolicy : u'.policy = u.policy) (healthy : Bool)
    {command : Command} (hcommand : d.command? = some command) :
    (d.outline.ticked u' healthy command).gist = (d.ticked u healthy command).gist := by
  have hstepped (goal : ScaleGoal) :
      (d.outline.setPhase .deploying).stepped u'.policy goal healthy =
        ((d.setPhase .deploying).stepped u.policy goal healthy).gist := by
    rw [hpolicy, gist_stepped]
    rfl
  cases command with
  | scale =>
    have hscale : d.outline.ticked u' healthy .scale =
        let stepped := ((d.setPhase .deploying).stepped u.policy d.fullGoal healthy).gist
        if (d.verdict d.fullGoal healthy).finished then stepped.finalized else stepped := by
      rw [← hstepped]
      rfl
    rw [hscale, ticked]
    split
    · exact gist_finalized _
    · exact gist_gist _
  | canary =>
    obtain ⟨-, c, hcanary⟩ := command?_eq_canary hcommand
    have houtline : d.outline.canary = some c := hcanary
    simp only [ticked, houtline, hcanary, Option.map_some, Option.getD_some, hstepped]
    exact gist_afterCanaryStep hpolicy c _ _
  | cancel => simp [ticked, reverted, outline, gist, setPhase, Function.comp_def]

/-- What a tick leaves does not depend on the failures before, nor on its time. -/
theorem gist_ticked_of_outline (h : d'.outline = d.outline) {u u' : Updater}
    (hpolicy : u'.policy = u.policy) (healthy : Bool) {command : Command}
    (hcommand : d.command? = some command) (hcommand' : d'.command? = some command) :
    (d'.ticked u' healthy command).gist = (d.ticked u healthy command).gist := by
  have hself : u'.policy = u'.policy := rfl
  rw [← gist_ticked_outline hself healthy hcommand', h,
    gist_ticked_outline hpolicy healthy hcommand]

end Deployment

private theorem Gated.of_outline {d d' : Deployment} (h : Gated d) (heq : d'.outline = d.outline) :
    Gated d' := by
  have houtline : Gated d'.outline := by
    rw [heq]
    exact ⟨h.within, h.target, h.total⟩
  exact ⟨houtline.within, houtline.target, houtline.total⟩

/-- What a tick saves when it succeeds has the gist of its copy. -/
theorem Updater.gist_settled_ok (u : Updater) (command : Command) (d d₁ : Deployment) :
    (u.settled command d d (d₁, .ok ())).gist = d₁.gist := by
  rw [settled_ok]
  split
  · next heq => rw [heq]
  · rw [if_pos rfl]
    rfl

/-- A failed call leaves the outline of the record, and the command that its phase calls for. -/
theorem Updater.outline_settled_failed (u : Updater) {command : Command} {d : Deployment}
    (hcommand : d.command? = some command) (d₁ : Deployment) (e : SchedulerError) :
    (u.settled command d d (d₁, .error (.scheduler e))).outline = d.outline ∧
      (u.settled command d d (d₁, .error (.scheduler e))).command? = some command := by
  rw [u.settled_error command d d d₁ (by simp), withFailure_eq]
  by_cases hactive : d.phase.isInProgress = true
  · have hmoves : (!(TickError.scheduler e).isRefusal && d.phase.isInProgress) = true := hactive
    rw [if_pos hmoves]
    refine ⟨rfl, ?_⟩
    cases command with
    | scale =>
      obtain ⟨-, hcanary⟩ := Deployment.command?_eq_scale hcommand
      simp [Deployment.command?, Deployment.nextRevision, Deployment.setPhase,
        Command.failurePhase, hcanary]
    | canary =>
      obtain ⟨-, c, hcanary⟩ := Deployment.command?_eq_canary hcommand
      simp [Deployment.command?, Deployment.nextRevision, Deployment.setPhase,
        Command.failurePhase, hcanary]
    | cancel =>
      rw [Deployment.command?_eq_cancel hcommand] at hactive
      cases hactive
  · have hstays : ¬(!(TickError.scheduler e).isRefusal && d.phase.isInProgress) = true := hactive
    rw [if_neg hstays]
    exact ⟨rfl, hcommand⟩

/-! ## Calls and what they leave -/

/-- The number that calls ask for last of the instances of a version. -/
def lastAsked (subject : String × String) : List Call → Option UInt32
  | [] => none
  | c :: rest => (lastAsked subject rest).or (if c.subject = subject then c.asked? else none)

/-- Of calls one after another the later ones count. -/
theorem lastAsked_append (subject : String × String) (first second : List Call) :
    lastAsked subject (first ++ second) =
      (lastAsked subject second).or (lastAsked subject first) := by
  induction first with
  | nil => simp [lastAsked]
  | cons c first ih => rw [List.cons_append, lastAsked, ih, lastAsked, Option.or_assoc]

private theorem lastAsked_of_isPrefix {subject : String × String} {calls script : List Call}
    (h : calls <+: script) (hnone : lastAsked subject script = none) :
    lastAsked subject calls = none := by
  obtain ⟨rest, rfl⟩ := h
  rw [lastAsked_append] at hnone
  exact (Option.or_eq_none_iff.mp hnone).2

section

variable {Rest : Type} {scheduler : Scheduler (Store × Rest)} {census : Census Rest}
  {w made : Store × Rest} {trace : List (Exchange (Store × Rest))}

/-- Calls that ask for no number of instances of a version leave them, failed or not. -/
theorem Scheduler.Faithful.of_unasked (h : scheduler.Faithful census)
    (hmakes : scheduler.Makes w trace made) {subject : String × String}
    (hnone : lastAsked subject (trace.map Exchange.call) = none) :
    census.of made subject = census.of w subject := by
  induction hmakes with
  | nil => rfl
  | @cons w made c trace hmakes ih =>
    obtain ⟨hrest, hfirst⟩ := Option.or_eq_none_iff.mp hnone
    rw [ih hrest]
    by_cases hsubject : c.subject = subject
    · rw [if_pos hsubject] at hfirst
      rw [← hsubject]
      exact h.asks c w hfirst
    · exact h.others c w subject (Ne.symm hsubject)

/-- Calls that are all answered leave the numbers of instances that they have asked for last. -/
theorem Scheduler.Faithful.of_asked (h : scheduler.Faithful census)
    (hmakes : scheduler.Makes w trace made) (hanswered : ∀ x ∈ trace, x.Answered)
    {subject : String × String} {count : UInt32}
    (hasked : lastAsked subject (trace.map Exchange.call) = some count) :
    census.of made subject = count.toNat := by
  induction hmakes with
  | nil => cases hasked
  | @cons w made c trace hmakes ih =>
    obtain ⟨⟨answer, hanswer⟩, hanswered⟩ := List.forall_mem_cons.mp hanswered
    cases hrest : lastAsked subject (trace.map Exchange.call) with
    | some later =>
      have heq : some later = some count := by
        rw [← hasked, List.map_cons, lastAsked, hrest, Option.some_or]
      exact ih hanswered (hrest.trans heq)
    | none =>
      rw [List.map_cons, lastAsked, hrest, Option.none_or] at hasked
      rw [h.of_unasked hmakes hrest]
      split at hasked
      · next hsubject =>
        rw [← hsubject]
        exact h.done c w count answer hasked hanswer
      · cases hasked

end

/-! ## Passes -/

/-- A pass of the driver at some time, after something that has happened aside. -/
inductive DriverPass {Rest : Type} (scheduler : Scheduler (Store × Rest)) (policy : StepPolicy)
    (id : String) (aside : Store × Rest → Store × Rest → Prop) :
    Store × Rest → List (Exchange (Store × Rest)) → Store × Rest → Prop where
  | driven (now : UInt64) {w w' : Store × Rest} (h : aside w w') :
    DriverPass scheduler policy id aside w (Updater.driveTrace ⟨policy, now⟩ scheduler id w')
      (Updater.drive ⟨policy, now⟩ scheduler id w')

/-- A number of passes, in each of which a call fails, with all their exchanges. -/
inductive FailingPasses {Rest : Type} (scheduler : Scheduler (Store × Rest)) (policy : StepPolicy)
    (id : String) (aside : Store × Rest → Store × Rest → Prop) :
    Nat → Store × Rest → List (Exchange (Store × Rest)) → Store × Rest → Prop where
  | none (w : Store × Rest) : FailingPasses scheduler policy id aside 0 w [] w
  | pass {k : Nat} {w w' w'' : Store × Rest} {trace next : List (Exchange (Store × Rest))}
    (h : FailingPasses scheduler policy id aside k w trace w')
    (hpass : DriverPass scheduler policy id aside w' next w'')
    (hfails : ∃ x ∈ next, ¬x.Answered) :
    FailingPasses scheduler policy id aside (k + 1) w (trace ++ next) w''

section

variable {Rest : Type} {scheduler : Scheduler (Store × Rest)} {census : Census Rest}
  {policy : StepPolicy} {id : String} {command : Command} {healthy : Bool} {d d' : Deployment}
  {w w' w'' : Store × Rest} {trace : List (Exchange (Store × Rest))}

private theorem Deployment.terms_of_outline (h : d'.outline = d.outline) : d'.terms = d.terms := by
  have houtline : d'.outline.terms = d.outline.terms := by rw [h]
  exact houtline

private theorem Deployment.deploying_of_outline (h : d'.outline = d.outline) :
    d'.deployingInstances = d.deployingInstances := by
  have houtline : d'.outline.deployingInstances = d.outline.deployingInstances := by rw [h]
  exact houtline

/-- All queries about the new version are answered alike, as far as the new instances that the
record counts are concerned. -/
def HealthKnown (d : Deployment) (healthy : Bool) (trace : List (Exchange (Store × Rest))) : Prop :=
  ∀ health w, ⟨.query d.appId d.version, .ok health, w⟩ ∈ trace →
    health.covers d.deployingInstances = healthy

private theorem HealthKnown.of_outline (h : HealthKnown d healthy trace)
    (heq : d'.outline = d.outline) : HealthKnown d' healthy trace := by
  have hterms := Deployment.terms_of_outline heq
  have happ : d'.appId = d.appId := congrArg Terms.appId hterms
  have hversion : d'.version = d.version := congrArg Terms.version hterms
  unfold HealthKnown
  rw [happ, hversion, Deployment.deploying_of_outline heq]
  exact h

/-- The exchanges of a pass are made one after another. -/
theorem Updater.makes_driveTrace (u : Updater) (scheduler : Scheduler (Store × Rest)) (id : String)
    (w : Store × Rest) : ∃ made, scheduler.Makes w (u.driveTrace scheduler id w) made := by
  unfold driveTrace tickTrace
  split
  · exact ⟨w, .nil w⟩
  · split
    · exact ⟨w, .nil w⟩
    · exact ⟨_, scheduler.makes_trace _ w⟩

/-- Passes have failed since a world with a record. The record is there as it was, but for the
failures, and only the instances of versions that the script asks for may have changed. -/
structure Retrying (census : Census Rest) (script : List Call) (id : String) (command : Command)
    (d : Deployment) (w : Store × Rest) (d' : Deployment) (w' : Store × Rest) : Prop where
  /-- The record is in the store. -/
  held : w'.1.Holds id d'
  /-- It is as it was, but for its phase and for what failures write. -/
  outline : d'.outline = d.outline
  /-- The driver has the same command for it. -/
  commanded : d'.command? = some command
  /-- A version that the script asks nothing of has as many instances as it had. -/
  instances : ∀ version, lastAsked (d.appId, version) script = none →
    census.of w' (d.appId, version) = census.of w (d.appId, version)

/-- A pass follows the script of the record of before, from a world with the same instances. -/
theorem Retrying.follows
    (h : Retrying census (d.script policy healthy command) id command d w d' w')
    (hgated : Gated d) (hfaithful : scheduler.Faithful census)
    (hpass : DriverPass scheduler policy id (Harmless census id d.appId) w' trace w'')
    (hhealthy : HealthKnown d healthy trace) :
    ∃ now outcome w₁ made,
      Scripted (d.script policy healthy command)
        (· = (d'.ticked ⟨policy, now⟩ healthy command, .ok ())) trace outcome ∧
      w''.1.Holds id (Updater.settled ⟨policy, now⟩ command d' d' outcome) ∧
      scheduler.Makes w₁ trace made ∧
      (∀ version, census.of w₁ (d.appId, version) = census.of w' (d.appId, version)) ∧
      ∀ subject, census.of w'' subject = census.of made subject := by
  cases hpass with
  | @driven now w' w₁ haside =>
    have hheld := h.held.of_get?_eq haside.beside
    rcases Updater.drive_spec ⟨policy, now⟩ (hfaithful.spares_id id) hheld with
      ⟨hnone, -⟩ | ⟨command', outcome, made, hcommand, hcourse, hmakes, hsettled, hinstances, hrest⟩
    · rw [h.commanded] at hnone
      cases hnone
    · obtain rfl := Option.some.inj (h.commanded.symm.trans hcommand)
      have hscripted := hcourse.scripted hcommand (hgated.of_outline h.outline)
        (hhealthy.of_outline h.outline)
      rw [Deployment.script_of_outline h.outline] at hscripted
      exact ⟨now, outcome, w₁, made, hscripted, hsettled, hmakes, haside.instances,
        census.of_eq hinstances hrest⟩

/-- After a pass in which a call has failed, the retrying goes on. -/
theorem Retrying.fails (h : Retrying census (d.script policy healthy command) id command d w d' w')
    (hgated : Gated d) (hfaithful : scheduler.Faithful census)
    (hpass : DriverPass scheduler policy id (Harmless census id d.appId) w' trace w'')
    (hhealthy : HealthKnown d healthy trace) (hfails : ∃ x ∈ trace, ¬x.Answered) :
    ∃ d'', Retrying census (d.script policy healthy command) id command d w d'' w'' := by
  obtain ⟨now, outcome, w₁, made, hscripted, hsettled, hmakes, haside, hmade⟩ :=
    h.follows hgated hfaithful hpass hhealthy
  cases hscripted with
  | full _ hanswered =>
    obtain ⟨x, hx, hfailed⟩ := hfails
    exact absurd (hanswered x hx) hfailed
  | @failed copy e hcalls _ =>
    obtain ⟨houtline, hcommand⟩ := Updater.outline_settled_failed ⟨policy, now⟩ h.commanded copy e
    refine ⟨_, hsettled, houtline.trans h.outline, hcommand, fun version hnone => ?_⟩
    rw [hmade, hfaithful.of_unasked hmakes (lastAsked_of_isPrefix hcalls hnone), haside]
    exact h.instances version hnone

/-- A pass in which no call fails leaves what the script leads to. -/
theorem Retrying.ends (h : Retrying census (d.script policy healthy command) id command d w d' w')
    (hcommand : d.command? = some command) (hgated : Gated d)
    (hfaithful : scheduler.Faithful census)
    (hpass : DriverPass scheduler policy id (Harmless census id d.appId) w' trace w'')
    (hhealthy : HealthKnown d healthy trace) (hanswered : ∀ x ∈ trace, x.Answered) :
    (∃ d'', w''.1.Holds id d'' ∧ d''.gist = (d.ticked ⟨policy, 0⟩ healthy command).gist) ∧
      ∀ version, census.of w'' (d.appId, version) =
        ((lastAsked (d.appId, version) (d.script policy healthy command)).map UInt32.toNat).getD
          (census.of w (d.appId, version)) := by
  obtain ⟨now, outcome, w₁, made, hscripted, hsettled, hmakes, haside, hmade⟩ :=
    h.follows hgated hfaithful hpass hhealthy
  cases hscripted with
  | failed _ hfails =>
    obtain ⟨x, hx, hfailed⟩ := hfails
    exact absurd (hanswered x hx) hfailed
  | full hcalls _ hfull =>
    obtain rfl := hfull
    constructor
    · refine ⟨_, hsettled, ?_⟩
      rw [Updater.gist_settled_ok]
      have hpolicy : (Updater.mk policy now).policy = (Updater.mk policy 0).policy := rfl
      exact Deployment.gist_ticked_of_outline h.outline hpolicy healthy hcommand h.commanded
    · intro version
      rw [hmade]
      cases hasked : lastAsked (d.appId, version) (d.script policy healthy command) with
      | none =>
        rw [hfaithful.of_unasked hmakes (by rw [hcalls, hasked]), haside]
        exact h.instances version hasked
      | some count => exact hfaithful.of_asked hmakes hanswered (by rw [hcalls, hasked])

/-- However many passes fail, the retrying goes on. -/
theorem FailingPasses.retrying {k : Nat}
    (h : FailingPasses scheduler policy id (Harmless census id d.appId) k w trace w')
    (hd : w.1.Holds id d) (hcommand : d.command? = some command) (hgated : Gated d)
    (hfaithful : scheduler.Faithful census) (hhealthy : HealthKnown d healthy trace) :
    ∃ d', Retrying census (d.script policy healthy command) id command d w d' w' := by
  induction h with
  | none w => exact ⟨d, hd, rfl, hcommand, fun _ _ => rfl⟩
  | pass h hpass hfails ih =>
    obtain ⟨d', hretrying⟩ := ih hd fun health w hmem =>
      hhealthy health w (List.mem_append_left _ hmem)
    exact hretrying.fails hgated hfaithful hpass
      (fun health w hmem => hhealthy health w (List.mem_append_right _ hmem)) hfails

end

/-- In any state of a run of a deployment that the driver would tick, with a scheduler that keeps
its contract: after any number of passes in which a call has failed, with or without effect, a
pass in which none fails leaves the same instances and the same record as if it had come at
once. The records may differ in their latest failure, in the revision and in the times, and so
may the times of the passes; what matters is that the new instances are found healthy in all of
them or in none. -/
theorem Run.retried {Rest : Type} {scheduler : Scheduler (Store × Rest)} {census : Census Rest}
    {policy : StepPolicy} {request : Request} {now : UInt64} {d₀ d : Deployment}
    {store created : Store} {rest : Rest} {w failing retried direct : Store × Rest}
    {trace failures last single : List (Exchange (Store × Rest))} {k : Nat} {healthy : Bool}
    (hnew : Deployment.new request now = .ok d₀) (hcreate : store.create d₀ = .ok created)
    (hfaithful : scheduler.Faithful census)
    (hrun : Run scheduler policy d₀.id (Harmless census d₀.id request.appId) (created, rest)
      trace w)
    (hd : w.1.deployment d₀.id = .ok d) (hcommand : d.command? ≠ none)
    (hfailing : FailingPasses scheduler policy d₀.id (Harmless census d₀.id request.appId) k w
      failures failing)
    (hlast : DriverPass scheduler policy d₀.id (Harmless census d₀.id request.appId) failing last
      retried)
    (hsingle : DriverPass scheduler policy d₀.id (Harmless census d₀.id request.appId) w single
      direct)
    (hanswered : ∀ x ∈ last ++ single, x.Answered)
    (hhealthy : ∀ health after,
      ⟨.query request.appId request.version, .ok health, after⟩ ∈ failures ++ last ++ single →
        health.covers d.deployingInstances = healthy) :
    (∃ d₁ d₂, retried.1.deployment d₀.id = .ok d₁ ∧ direct.1.deployment d₀.id = .ok d₂ ∧
      d₁.gist = d₂.gist) ∧
    ∀ version, census.of retried (request.appId, version) =
      census.of direct (request.appId, version) := by
  obtain ⟨hbegin, hsound⟩ := Deployment.new_eq_ok hnew
  have hheld : (created, rest).1.Holds d₀.id d₀ := Store.holds_create hcreate
  subst hbegin
  obtain ⟨d', hheld', hgated, hterms⟩ := hrun.keeps (hfaithful.spares_id _)
    (fun _ _ haside => haside.beside)
    (fun _ _ _ hgated hmove => (hmove.advance hgated).gated hgated)
    hheld (gated_begin hsound now)
  obtain rfl : d = d' := Except.ok.inj (hd.symm.trans hheld'.deployment)
  obtain ⟨command, hcommand⟩ := Option.ne_none_iff_exists'.mp hcommand
  have happ : request.appId = d.appId := (congrArg Terms.appId hterms).symm
  have hversion : request.version = d.version := (congrArg Terms.version hterms).symm
  rw [happ] at hfailing hlast hsingle
  rw [happ, hversion] at hhealthy
  obtain ⟨failed, hretrying⟩ := hfailing.retrying hheld' hcommand hgated hfaithful
    fun health after hmem => hhealthy health after (by simp [hmem])
  obtain ⟨⟨d₁, hd₁, hgist₁⟩, hinstances₁⟩ := hretrying.ends hcommand hgated hfaithful hlast
    (fun health after hmem => hhealthy health after (by simp [hmem]))
    (fun x hx => hanswered x (List.mem_append_left _ hx))
  obtain ⟨⟨d₂, hd₂, hgist₂⟩, hinstances₂⟩ := Retrying.ends ⟨hheld', rfl, hcommand, fun _ _ => rfl⟩
    hcommand hgated hfaithful hsingle
    (fun health after hmem => hhealthy health after (by simp [hmem]))
    (fun x hx => hanswered x (List.mem_append_right _ hx))
  refine ⟨⟨d₁, d₂, hd₁.deployment, hd₂.deployment, hgist₁.trans hgist₂.symm⟩, fun version => ?_⟩
  rw [happ, hinstances₁, hinstances₂]

/-! ## A rollout with an unsteady scheduler -/

/-- What becomes of a call: it is carried out and answered, or it gets lost on the way, or it is
carried out and its answer gets lost. -/
inductive Fate where
  | answered
  | lost
  | unheard

namespace Scheduler

/-- A scheduler of numbers whose next calls have given fates. All later ones are answered. -/
def unsteady : Scheduler (Store × ((String × String → UInt32) × List Fate)) :=
  fun c (store, counts, fates) =>
    let (answer, done) := counting c (store, counts)
    match fates with
    | [] => (answer, (done.1, done.2, []))
    | .answered :: fates => (answer, (done.1, done.2, fates))
    | .lost :: fates => (.error (.unavailable "timeout"), (store, counts, fates))
    | .unheard :: fates => (.error (.unavailable "timeout"), (done.1, done.2, fates))

/-- The numbers of such a scheduler, whatever the fates. -/
def numbersNow : Census ((String × String → UInt32) × List Fate) :=
  fun instances rest => numbers instances rest.1

/-- Each call is one of a scheduler of numbers, or nothing, and only the former may be
answered. -/
theorem unsteady_cases (c : Call) (w : Store × ((String × String → UInt32) × List Fate)) :
    ((∀ subject, numbersNow.of (unsteady c w).2 subject =
        numbers.of (counting c (w.1, w.2.1)).2 subject) ∧
      ((unsteady c w).1 = (counting c (w.1, w.2.1)).1 ∨ ∃ e, (unsteady c w).1 = .error e)) ∨
    ((∀ subject, numbersNow.of (unsteady c w).2 subject = numbersNow.of w subject) ∧
      ∃ e, (unsteady c w).1 = .error e) := by
  obtain ⟨store, counts, fates⟩ := w
  cases fates with
  | nil => exact Or.inl ⟨fun _ => rfl, Or.inl rfl⟩
  | cons fate fates =>
    cases fate with
    | answered => exact Or.inl ⟨fun _ => rfl, Or.inl rfl⟩
    | lost => exact Or.inr ⟨fun _ => rfl, _, rfl⟩
    | unheard => exact Or.inl ⟨fun _ => rfl, Or.inr ⟨_, rfl⟩⟩

/-- A scheduler that loses calls and answers is faithful. -/
theorem faithful_unsteady : unsteady.Faithful numbersNow where
  spares c w := by
    obtain ⟨store, counts, fates⟩ := w
    have hspares := exact_counting.spares c (store, counts)
    cases fates with
    | nil => exact hspares
    | cons fate fates =>
      cases fate with
      | answered | unheard => exact hspares
      | lost => rfl
  others c w subject h := by
    rcases unsteady_cases c w with ⟨hcounts, -⟩ | ⟨hcounts, -⟩
    · rw [hcounts]
      exact exact_counting.others c (w.1, w.2.1) subject h
    · exact hcounts subject
  asks c w h := by
    rcases unsteady_cases c w with ⟨hcounts, -⟩ | ⟨hcounts, -⟩
    · rw [hcounts]
      exact exact_counting.asks c (w.1, w.2.1) h
    · exact hcounts c.subject
  done c w count answer h hanswer := by
    rcases unsteady_cases c w with ⟨hcounts, hsame | ⟨e, herror⟩⟩ | ⟨-, e, herror⟩
    · rw [hcounts]
      exact exact_counting.done c (w.1, w.2.1) count answer h (hsame.symm.trans hanswer)
    · rw [hanswer] at herror
      cases herror
    · rw [hanswer] at herror
      cases herror
  failed c w count e h _ := by
    rcases unsteady_cases c w with ⟨hcounts, -⟩ | ⟨hcounts, -⟩
    · left
      obtain ⟨answer, hanswer⟩ := exact_counting.answers c (w.1, w.2.1)
      rw [hcounts]
      exact exact_counting.done c (w.1, w.2.1) count answer h hanswer
    · right
      exact hcounts c.subject

/-- Without fates all calls are answered. -/
theorem answered_unsteady {store : Store} {counts : String × String → UInt32}
    {trace : List (Exchange (Store × ((String × String → UInt32) × List Fate)))}
    {made : Store × ((String × String → UInt32) × List Fate)}
    (h : unsteady.Makes (store, counts, []) trace made) : ∀ x ∈ trace, x.Answered := by
  induction trace generalizing store counts with
  | nil => simp
  | cons x trace ih =>
    obtain ⟨hfirst, hrest⟩ := h.cons_inv
    obtain ⟨c, answer, after⟩ := x
    obtain ⟨hanswer, hafter⟩ := Prod.mk.inj hfirst
    obtain ⟨count, hcounting⟩ := exact_counting.answers c (store, counts)
    have hafter : (((counting c (store, counts)).2.1, (counting c (store, counts)).2.2, []) :
        Store × ((String × String → UInt32) × List Fate)) = after := hafter
    subst hafter
    exact List.forall_mem_cons.mpr ⟨⟨count, hanswer.symm.trans hcounting⟩, ih hrest⟩

/-- A pass over a new rollout hears the answer to its first call and not the one to its second. -/
theorem answers_unsteady (store : Store) :
    (((⟨.fixed 1, 1⟩ : Updater).action .canary (Deployment.begin .canaryOfOne 0)).trace unsteady
      (store, Request.canaryOfOne.counts, [Fate.answered, .unheard])).map
        (fun x => x.answer.toBool) = [true, false] := by
  -- The plan is followed without the store, whose texts the check would read otherwise.
  obtain ⟨next, hplan, last, hnext, outcome, hlast⟩ : ∃ next,
      (⟨.fixed 1, 1⟩ : Updater).action .canary (Deployment.begin .canaryOfOne 0) =
        .call (.query "shop" "2") next ∧
      ∃ last, next (.ok ⟨0, 0⟩) = .call (.setCount "shop" "1" 2) last ∧
      ∃ outcome, last (.error (.unavailable "timeout")) = .done outcome :=
    ⟨_, rfl, _, rfl, _, rfl⟩
  have hquery : unsteady (.query "shop" "2")
      (store, Request.canaryOfOne.counts, [Fate.answered, .unheard]) =
        (.ok ⟨0, 0⟩, (store, Request.canaryOfOne.counts, [.unheard])) := rfl
  have hset (counts : String × String → UInt32) :
      (unsteady (.setCount "shop" "1" 2) (store, counts, [Fate.unheard])).1 =
        .error (.unavailable "timeout") := rfl
  rw [hplan, Plan.trace, hquery, hnext, Plan.trace, hset, hlast]
  rfl

end Scheduler

/-- The answer to the second call of a pass gets lost, so that the record counts three stable
instances, of which one is already gone. -/
theorem retried_after_unheard_call :
    let d₀ := Deployment.begin .canaryOfOne 0
    let w := (Store.empty.write d₀, Request.canaryOfOne.counts, [Fate.answered, .unheard])
    let failing := Updater.drive ⟨.fixed 1, 1⟩ Scheduler.unsteady d₀.id w
    let retried := Updater.drive ⟨.fixed 1, 2⟩ Scheduler.unsteady d₀.id
      (failing.1, failing.2.1, [])
    let direct := Updater.drive ⟨.fixed 1, 1⟩ Scheduler.unsteady d₀.id (w.1, w.2.1, [])
    (∃ d₁ d₂, retried.1.deployment d₀.id = .ok d₁ ∧ direct.1.deployment d₀.id = .ok d₂ ∧
      d₁.gist = d₂.gist) ∧
    ∀ version, Scheduler.numbersNow.of retried ("shop", version) =
      Scheduler.numbersNow.of direct ("shop", version) := by
  intro d₀ w
  have hnew : Deployment.new .canaryOfOne 0 = .ok d₀ := rfl
  have hcreate : Store.empty.create d₀ = .ok w.1 := rfl
  have hheld : w.1.Holds d₀.id d₀ := Store.empty.holds_write d₀
  have hrest : w.2 = (Request.canaryOfOne.counts, [Fate.answered, .unheard]) := rfl
  -- The store is left open from here on, so that the check does not read its texts.
  clear_value w
  obtain ⟨store, rest⟩ := w
  obtain rfl := hrest
  intro failing retried direct
  have hcommand : d₀.command? ≠ none := by decide
  have hfails : ∃ x ∈ Updater.driveTrace ⟨.fixed 1, 1⟩ Scheduler.unsteady d₀.id
      (store, Request.canaryOfOne.counts, [Fate.answered, .unheard]), ¬x.Answered := by
    have hanswers : (Updater.driveTrace ⟨.fixed 1, 1⟩ Scheduler.unsteady d₀.id
        (store, Request.canaryOfOne.counts, [Fate.answered, .unheard])).map
          (fun x => x.answer.toBool) = [true, false] := by
      simp only [Updater.driveTrace, Updater.tickTrace, Updater.read_eq_ok hheld]
      exact Scheduler.answers_unsteady store
    have hmem : false ∈ [true, false] := by decide
    rw [← hanswers] at hmem
    obtain ⟨x, hx, hfailed⟩ := List.mem_map.mp hmem
    refine ⟨x, hx, ?_⟩
    rintro ⟨answer, hanswer⟩
    rw [hanswer] at hfailed
    cases hfailed
  have hfailing : FailingPasses Scheduler.unsteady (.fixed 1) d₀.id
      (Harmless Scheduler.numbersNow d₀.id "shop") 1 _ _ failing :=
    .pass (.none _) (.driven 1 ⟨rfl, fun _ => rfl⟩) hfails
  have hlast : DriverPass Scheduler.unsteady (.fixed 1) d₀.id
      (Harmless Scheduler.numbersNow d₀.id "shop") failing _ retried :=
    .driven 2 ⟨rfl, fun _ => rfl⟩
  have hsingle : DriverPass Scheduler.unsteady (.fixed 1) d₀.id
      (Harmless Scheduler.numbersNow d₀.id "shop")
      (store, Request.canaryOfOne.counts, [Fate.answered, .unheard]) _ direct :=
    .driven 1 ⟨rfl, fun _ => rfl⟩
  have hcovers (health : Health) : health.covers d₀.deployingInstances = true := by
    have hnone : d₀.deployingInstances = 0 := rfl
    simp [hnone, Health.covers]
  refine Run.retried hnew hcreate Scheduler.faithful_unsteady (.start _) hheld.deployment hcommand
    hfailing hlast hsingle ?_ fun health _ _ => hcovers health
  intro x hx
  rcases List.mem_append.mp hx with hx | hx
  · obtain ⟨made, hmakes⟩ := Updater.makes_driveTrace ⟨.fixed 1, 2⟩ Scheduler.unsteady d₀.id
      (failing.1, failing.2.1, [])
    exact Scheduler.answered_unsteady hmakes x hx
  · obtain ⟨made, hmakes⟩ := Updater.makes_driveTrace ⟨.fixed 1, 1⟩ Scheduler.unsteady d₀.id
      (store, Request.canaryOfOne.counts, [])
    exact Scheduler.answered_unsteady hmakes x hx

end Rollout
