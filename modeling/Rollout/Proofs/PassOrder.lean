import Mathlib.Data.List.Perm.Basic
import Rollout.Proofs.Footprint
import Rollout.Proofs.Ledger

/-!
# The order of the ticks in a pass

The ticks of a pass are chosen before the first of them is made. When the versions of different
deployments cannot be taken for one another, each tick does what it would have done alone, so the
order in which they are made leaves no trace.
-/

namespace Rollout

open Instance (Shadows)

/-! ## Footprints apart -/

namespace Footprint

variable {f g : Footprint} {store after : Store}

/-- Two footprints that have neither a record nor an instance in common. -/
structure Apart (f g : Footprint) : Prop where
  /-- They are about different records. -/
  ids : f.id ≠ g.id
  /-- No key belongs to versions of both. -/
  keys : ∀ key, f.Covers key → ¬g.Covers key

/-- Footprints are apart from one another in both directions. -/
theorem Apart.symm (h : f.Apart g) : g.Apart f where
  ids := h.ids.symm
  keys key hg hf := h.keys key hf hg

/-- What keeps to one footprint cannot be seen in the other. -/
theorem Apart.agree (h : f.Apart g) (hspares : f.Spares store after) : g.Agree store after where
  record := (hspares.records g.id h.ids.symm).symm
  instances key hkey := (hspares.instances key (h.symm.keys key hkey)).symm

end Footprint

namespace Deployment

/-- The keys of one rollout's versions do not begin as those of the other's do. -/
def Apart (d e : Deployment) : Prop :=
  ∀ s ∈ d.subjects, ∀ t ∈ e.subjects, ¬Shadows s t ∧ ¬Shadows t s

/-- Whether two rollouts are apart is seen from the keys of their versions. -/
instance (d e : Deployment) : Decidable (d.Apart e) :=
  inferInstanceAs (Decidable (∀ s ∈ d.subjects, ∀ t ∈ e.subjects, ¬Shadows s t ∧ ¬Shadows t s))

/-- Of two beginnings of one key, one is a beginning of the other. -/
theorem Apart.footprint {d e : Deployment} (h : d.Apart e) (hne : d.id ≠ e.id) :
    d.footprint.Apart e.footprint := by
  refine ⟨hne, fun key => ?_⟩
  rintro ⟨s, hs, hskey⟩ ⟨t, ht, htkey⟩
  rw [Store.isKeyOf_iff] at hskey htkey
  obtain ⟨hst, hts⟩ := h s hs t ht
  rcases List.prefix_or_prefix_of_prefix hskey htkey with hprefix | hprefix
  · exact hst hprefix
  · exact hts hprefix

end Deployment

/-! ## Ticks one after another -/

namespace Updater

variable {Rest : Type} {u : Updater} {s : LocalScheduler} {w w' w'' : Store × Rest}
  {tasks tasks' : List (Deployment × Command)}

/-- The ticks that are made for some records, by their ids. -/
def named (tasks : List (Deployment × Command)) : List (String × Command) :=
  tasks.map fun task => (task.1.id, task.2)

/-- Each record with the instances of its versions is as if it alone had been ticked, and the rest
is as it was. -/
structure EachAlone (u : Updater) (s : LocalScheduler) (tasks : List (Deployment × Command))
    (w w' : Store × Rest) : Prop where
  /-- In the footprint of a task its tick alone would have left the same. -/
  alone : ∀ task ∈ tasks, task.1.footprint.Agree
    (u.tick s.scheduler.onFirst task.1.id task.2 w).2.1 w'.1
  /-- The records of all others are as they were. -/
  records : ∀ id, (∀ task ∈ tasks, task.1.id ≠ id) →
    w'.1.deployments.get? id = w.1.deployments.get? id
  /-- The instances of all other versions are as they were. -/
  instances : ∀ key, (∀ task ∈ tasks, ¬task.1.footprint.Covers key) →
    w'.1.instances.get? key = w.1.instances.get? key
  /-- What is beside the store is as it was. -/
  rest : w'.2 = w.2

/-- Ticks for records that are apart do not get in one another's way. -/
theorem eachAlone_ticks (hread : ∀ task ∈ tasks, w.1.deployment task.1.id = .ok task.1)
    (hapart : tasks.Pairwise fun task other => task.1.footprint.Apart other.1.footprint) :
    u.EachAlone s tasks w (u.ticks s.scheduler.onFirst (named tasks) w).2 := by
  induction tasks generalizing w with
  | nil => exact ⟨by simp, fun _ _ => rfl, fun _ _ => rfl, rfl⟩
  | cons task tasks ih =>
    obtain ⟨hfirst, hothers⟩ := List.forall_mem_cons.mp hread
    obtain ⟨hfree, hapart⟩ := List.pairwise_cons.mp hapart
    have hspares := u.spares_tick (s := s) task.2 hfirst
    have hrest := u.rest_tick (s := s) task.2 hfirst
    -- The records that are still to be ticked find what they would have found at the beginning.
    have hagree (other : Deployment × Command) (hother : other ∈ tasks) :=
      (hfree other hother).agree hspares
    have hnext := ih (fun other hother =>
      (hagree other hother).deployment_eq.symm.trans (hothers other hother)) hapart
    refine ⟨List.forall_mem_cons.mpr ⟨⟨?_, fun key hkey => ?_⟩, fun other hother => ?_⟩,
      fun id hid => ?_, fun key hkey => ?_, ?_⟩
    · exact (hnext.records task.1.id fun other hother => (hfree other hother).ids.symm).symm
    · exact (hnext.instances key fun other hother => (hfree other hother).keys key hkey).symm
    · exact (u.agree_tick other.2 (hothers other hother) (hagree other hother)).trans
        (hnext.alone other hother)
    · obtain ⟨hne, hid⟩ := List.forall_mem_cons.mp hid
      exact (hnext.records id hid).trans (hspares.records id hne.symm)
    · obtain ⟨hcovers, hkey⟩ := List.forall_mem_cons.mp hkey
      exact (hnext.instances key hkey).trans (hspares.instances key hcovers)
    · exact hnext.rest.trans hrest

/-- Nothing is left open by what each tick would do alone. -/
theorem EachAlone.unique (h : u.EachAlone s tasks w w') (h' : u.EachAlone s tasks' w w'')
    (hsame : ∀ task, task ∈ tasks' ↔ task ∈ tasks) : w' = w'' := by
  have hdeployments : w'.1.deployments = w''.1.deployments := by
    refine Table.eq_of_get? fun id => ?_
    by_cases hid : ∃ task ∈ tasks, task.1.id = id
    · obtain ⟨task, htask, rfl⟩ := hid
      have halone := h'.alone task ((hsame task).mpr htask)
      exact (h.alone task htask).record.symm.trans halone.record
    · have hnone : ∀ task ∈ tasks, task.1.id ≠ id := by simpa using hid
      rw [h.records id hnone, h'.records id fun task htask => hnone task ((hsame task).mp htask)]
  have hinstances : w'.1.instances = w''.1.instances := by
    refine Table.eq_of_get? fun key => ?_
    by_cases hkey : ∃ task ∈ tasks, task.1.footprint.Covers key
    · obtain ⟨task, htask, hcovers⟩ := hkey
      have halone := h'.alone task ((hsame task).mpr htask)
      exact ((h.alone task htask).instances key hcovers).symm.trans
        (halone.instances key hcovers)
    · have hnone : ∀ task ∈ tasks, ¬task.1.footprint.Covers key := by simpa using hkey
      rw [h.instances key hnone,
        h'.instances key fun task htask => hnone task ((hsame task).mp htask)]
  have hstore : w'.1 = w''.1 := by
    rw [show w'.1 = ⟨w'.1.deployments, w'.1.instances⟩ from rfl, hdeployments, hinstances]
  exact Prod.ext hstore (h.rest.trans h'.rest.symm)

/-- There are as many reports as ticks. -/
theorem length_ticks (u : Updater) (scheduler : Scheduler (Store × Rest))
    (order : List (String × Command)) (w : Store × Rest) :
    (u.ticks scheduler order w).1.length = order.length := by
  induction order generalizing w with
  | nil => rfl
  | cons first order ih => exact congrArg Nat.succ (ih _)

end Updater

/-! ## Records under their own ids -/

namespace Store

variable {store : Store} {d : Deployment}

/-- Every entry of the table of deployments is a record under its own id. -/
def Filed (store : Store) : Prop :=
  ∀ id text, store.deployments.get? id = some text → ∃ d, readDeployment text = .ok d ∧ d.id = id

/-- The empty store has its records under their own ids. -/
theorem filed_empty : Filed .empty := by
  intro id text h
  cases h

/-- A record is written under its own id. -/
theorem Filed.write (h : store.Filed) (d : Deployment) : (store.write d).Filed := by
  intro id text htext
  rw [Store.write, Table.get?_insert] at htext
  split at htext
  · next hid =>
    obtain rfl := Option.some.inj htext
    exact ⟨d, by rw [readDeployment, Deployment.ofText?_toText], hid.symm⟩
  · exact h id text htext

/-- Entries that are records under their own ids can all be read. -/
theorem exists_mapM_readDeployment {entries : List (String × String)}
    (h : ∀ entry ∈ entries, ∃ d, readDeployment entry.2 = .ok d ∧ d.id = entry.1) :
    ∃ ds, (entries.map Prod.snd).mapM readDeployment = .ok ds ∧
      ds.map Deployment.id = entries.map Prod.fst ∧
      ∀ d, d ∈ ds ↔ ∃ entry ∈ entries, readDeployment entry.2 = .ok d := by
  induction entries with
  | nil => exact ⟨[], rfl, rfl, by simp⟩
  | cons entry rest ih =>
    obtain ⟨⟨first, hread, hid⟩, hrest⟩ := List.forall_mem_cons.mp h
    obtain ⟨ds, hlist, hids, hmem⟩ := ih hrest
    refine ⟨first :: ds, ?_, ?_, fun d => ?_⟩
    · rw [List.map_cons, List.mapM_cons, hread, hlist]
      rfl
    · rw [List.map_cons, List.map_cons, hid, hids]
    · rw [List.mem_cons, hmem]
      simp only [List.mem_cons, or_and_right, exists_or, exists_eq_left, hread,
        Except.ok.injEq, eq_comm (a := d)]

/-- A record is found under its id exactly if it is an entry of the table. -/
theorem Filed.deployment_iff (h : store.Filed) :
    store.deployment d.id = .ok d ↔
      ∃ entry ∈ store.deployments.entries, readDeployment entry.2 = .ok d := by
  constructor
  · intro hd
    unfold deployment deployment? at hd
    cases htext : store.deployments.get? d.id with
    | none => simp [htext] at hd
    | some text =>
      refine ⟨(d.id, text), (Table.mem_entries_iff _ _ _).mpr htext, ?_⟩
      cases hread : readDeployment text with
      | error e => simp [htext, hread, Except.map] at hd
      | ok stored => simpa [htext, hread, Except.map] using hd
  · rintro ⟨⟨id, text⟩, hentry, hread⟩
    have htext := (Table.mem_entries_iff _ _ _).mp hentry
    obtain ⟨stored, hstored, hid⟩ := h id text htext
    obtain rfl := Except.ok.inj (hread.symm.trans hstored)
    simp only [deployment, deployment?, hid, htext, hread, Except.map]

/-- Such records can be listed, each once. -/
theorem Filed.listed (h : store.Filed) :
    ∃ ds, store.deploymentList = .ok ds ∧ (∀ d, d ∈ ds ↔ store.deployment d.id = .ok d) ∧
      ds.Pairwise fun d e => d.id ≠ e.id := by
  obtain ⟨ds, hlist, hids, hmem⟩ := exists_mapM_readDeployment fun entry hentry =>
    h entry.1 entry.2 ((Table.mem_entries_iff _ _ _).mp hentry)
  refine ⟨ds, hlist, fun d => (hmem d).trans h.deployment_iff.symm, ?_⟩
  have hsorted : (ds.map Deployment.id).Pairwise (· < ·) := by
    rw [hids, List.pairwise_map]
    exact store.deployments.sorted
  exact (List.pairwise_map.mp hsorted).imp fun hlt => String.ne_of_lt hlt

end Store

/-! ## Passes -/

namespace Updater

variable {Rest : Type} {u : Updater} {s : LocalScheduler} {w : Store × Rest}

/-- The records of a list that a pass makes ticks for, with the commands that it chooses. -/
def tasks (ds : List Deployment) : List (Deployment × Command) :=
  ds.filterMap fun d => d.command?.map fun command => (d, command)

/-- Any order of ticks is an order of the records that they are made for. -/
theorem exists_named {tasks : List (Deployment × Command)} {order : List (String × Command)}
    (h : order.Perm (named tasks)) : ∃ list, list.Perm tasks ∧ order = named list := by
  obtain ⟨list, horder, hperm⟩ := (congrFun₂ (List.eq_map_comp_perm _) order tasks).mpr h
  exact ⟨list, hperm, horder⟩

/-- The named tasks are the ticks that a pass chooses. -/
theorem named_tasks (ds : List Deployment) : named (tasks ds) = chosen ds := by
  simp only [named, tasks, chosen, List.map_filterMap, Option.map_map]
  rfl

/-- The tasks are the records of a list that have a command. -/
theorem mem_tasks {ds : List Deployment} {task : Deployment × Command} :
    task ∈ tasks ds ↔ task.1 ∈ ds ∧ task.1.command? = some task.2 := by
  obtain ⟨d, command⟩ := task
  simp only [tasks, List.mem_filterMap, Option.map_eq_some_iff, Prod.mk.injEq]
  constructor
  · rintro ⟨_, hd, _, hcommand, rfl, rfl⟩
    exact ⟨hd, hcommand⟩
  · rintro ⟨hd, hcommand⟩
    exact ⟨d, hd, command, hcommand, rfl, rfl⟩

/-- The phases that have a command are those in progress and the one that waits for its cancel. -/
theorem isSome_command?_iff {d : Deployment} :
    d.command?.isSome = true ↔ d.phase ∈ [Phase.deploying, .failed, .canceling] := by
  cases hphase : d.phase <;> simp [Deployment.command?, hphase]

/-- Records whose versions are apart get ticks with footprints apart. -/
theorem apart_tasks {ds : List Deployment} (hids : ds.Pairwise fun d e => d.id ≠ e.id)
    (hapart : ∀ d ∈ ds, ∀ e ∈ ds, d.command? ≠ none → e.command? ≠ none → d ≠ e → d.Apart e) :
    (tasks ds).Pairwise fun task other => task.1.footprint.Apart other.1.footprint := by
  have hpairs : (tasks ds).Pairwise fun task other => task.1.id ≠ other.1.id := by
    rw [tasks, List.pairwise_filterMap]
    refine hids.imp fun hne task htask other hother => ?_
    obtain ⟨_, -, rfl⟩ := Option.map_eq_some_iff.mp htask
    obtain ⟨_, -, rfl⟩ := Option.map_eq_some_iff.mp hother
    exact hne
  refine hpairs.imp_of_mem fun {task other} htask hother hne => ?_
  obtain ⟨htask, hcommand⟩ := mem_tasks.mp htask
  obtain ⟨hother, hcommand'⟩ := mem_tasks.mp hother
  have hboth := hapart task.1 htask other.1 hother (by simp [hcommand]) (by simp [hcommand'])
  exact (hboth fun heq => hne (congrArg Deployment.id heq)).footprint hne

/-- What a pass over a list of deployments comes to, whatever the order of its ticks. -/
structure Orderless (u : Updater) (s : LocalScheduler) (ds : List Deployment) (w : Store × Rest) :
    Prop where
  /-- The ticks leave the same in any order. -/
  order : ∀ order, order.Perm (chosen ds) →
    (u.ticks s.scheduler.onFirst order w).2 = (u.pass s.scheduler.onFirst w).2
  /-- In the footprint of a deployment its tick alone would have left the same. -/
  alone : ∀ d ∈ ds, ∀ command, d.command? = some command → d.footprint.Agree
    (u.tick s.scheduler.onFirst d.id command w).2.1 (u.pass s.scheduler.onFirst w).2.1
  /-- The record of a deployment without a command is as it was. -/
  skipped : ∀ d ∈ ds, d.command? = none →
    (u.pass s.scheduler.onFirst w).2.1.deployments.get? d.id = w.1.deployments.get? d.id
  /-- The instances of versions that no tick is about are as they were. -/
  untouched : ∀ key, (∀ d ∈ ds, d.command? ≠ none → ¬d.footprint.Covers key) →
    (u.pass s.scheduler.onFirst w).2.1.instances.get? key = w.1.instances.get? key
  /-- The pass counts the deployments that have a command. -/
  count : (u.pass s.scheduler.onFirst w).1.count =
    ds.countP (·.phase ∈ [Phase.deploying, .failed, .canceling])

private theorem pass_of_listed (u : Updater) (scheduler : Scheduler (Store × Rest))
    {ds : List Deployment} (hlist : w.1.deploymentList = .ok ds) :
    u.pass scheduler w =
      (.ticked (u.ticks scheduler (chosen ds) w).1, (u.ticks scheduler (chosen ds) w).2) := by
  rw [pass, hlist]

/-- A pass with the local scheduler ticks the deployments that are deploying, failed or being
canceled, and the order of the ticks does not matter if their versions are apart. -/
theorem pass_orderless (u : Updater) (s : LocalScheduler) (hfiled : w.1.Filed)
    (hapart : ∀ d e, w.1.deployment d.id = .ok d → w.1.deployment e.id = .ok e →
      d.command? ≠ none → e.command? ≠ none → d ≠ e → d.Apart e) :
    ∃ ds, w.1.deploymentList = .ok ds ∧ (∀ d, d ∈ ds ↔ w.1.deployment d.id = .ok d) ∧
      u.Orderless s ds w := by
  obtain ⟨ds, hlist, hmem, hids⟩ := hfiled.listed
  refine ⟨ds, hlist, hmem, ?_⟩
  have hread (task : Deployment × Command) (htask : task ∈ tasks ds) :
      w.1.deployment task.1.id = .ok task.1 :=
    (hmem task.1).mp (mem_tasks.mp htask).1
  have hpairwise := apart_tasks hids fun d hd e he =>
    hapart d e ((hmem d).mp hd) ((hmem e).mp he)
  have hany (list : List (Deployment × Command)) (hperm : list.Perm (tasks ds)) :
      u.EachAlone s list w (u.ticks s.scheduler.onFirst (named list) w).2 := by
    refine eachAlone_ticks (fun task htask => hread task (hperm.mem_iff.mp htask)) ?_
    exact (hperm.pairwise_iff fun h => h.symm).mpr hpairwise
  have hpass : u.EachAlone s (tasks ds) w (u.pass s.scheduler.onFirst w).2 := by
    rw [u.pass_of_listed s.scheduler.onFirst hlist, ← named_tasks]
    exact hany (tasks ds) (.refl _)
  constructor
  · intro order horder
    rw [← named_tasks] at horder
    obtain ⟨list, hperm, rfl⟩ := exists_named horder
    exact (hany list hperm).unique hpass fun task => hperm.mem_iff.symm
  · intro d hd command hcommand
    exact hpass.alone (d, command) (mem_tasks.mpr ⟨hd, hcommand⟩)
  · intro d hd hcommand
    refine hpass.records d.id fun task htask hid => ?_
    -- There is only one record under the id, and it has not been passed over.
    have hsame := hread task htask
    rw [hid, (hmem d).mp hd] at hsame
    rw [Except.ok.inj hsame, (mem_tasks.mp htask).2] at hcommand
    cases hcommand
  · intro key hkey
    refine hpass.instances key fun task htask => ?_
    obtain ⟨htask, hcommand⟩ := mem_tasks.mp htask
    exact hkey task.1 htask (by simp [hcommand])
  · rw [u.pass_of_listed s.scheduler.onFirst hlist, PassReport.count, length_ticks, chosen,
      List.length_filterMap_eq_countP]
    refine List.countP_congr fun d _ => ?_
    rw [Option.isSome_map, isSome_command?_iff, decide_eq_true_iff]

/-- Of three deployments one is paused, so it may be about the same versions as another. -/
theorem pass_orderless_of_three :
    let deploying := Deployment.begin .canaryOfOne 0
    let paused := { deploying with id := "shop-3" }.setPhase .paused
    let canceling := { deploying with id := "wiki-2", appId := "wiki" }.setPhase .canceling
    let store := ((Store.empty.write deploying).write paused).write canceling
    store.Filed ∧ store.deploymentList = .ok [deploying, paused, canceling] ∧
      deploying.Apart canceling ∧ ¬deploying.Apart paused ∧
      Orderless ⟨.fixed 1, 5⟩ ⟨true, 5⟩ [deploying, paused, canceling] (store, ()) := by
  intro deploying paused canceling store
  have hfiled : store.Filed := ((Store.filed_empty.write deploying).write paused).write canceling
  have hvalues : store.deployments.values =
      [deploying, paused, canceling].map Deployment.toText := by
    show (Table.place "wiki-2" canceling.toText (Table.place "shop-3" paused.toText
      [("shop-2", deploying.toText)])).map Prod.snd = _
    have hpaused : ∀ entry ∈ [("shop-2", deploying.toText)], entry.1 < "shop-3" :=
      List.forall_mem_singleton.mpr (by decide)
    have hcanceling : ∀ entry ∈ [("shop-2", deploying.toText), ("shop-3", paused.toText)],
        entry.1 < "wiki-2" :=
      List.forall_mem_cons.mpr ⟨by decide, List.forall_mem_singleton.mpr (by decide)⟩
    rw [Table.place_of_last hpaused, List.singleton_append, Table.place_of_last hcanceling]
    rfl
  have hlist : store.deploymentList = .ok [deploying, paused, canceling] := by
    rw [Store.deploymentList, hvalues, Store.mapM_read Store.readDeployment_toText]
  have hapart (d e : Deployment) (hd : store.deployment d.id = .ok d)
      (he : store.deployment e.id = .ok e) (hactive : d.command? ≠ none)
      (hactive' : e.command? ≠ none) (hne : d ≠ e) : d.Apart e := by
    obtain ⟨ds, hlist', hmem, -⟩ := hfiled.listed
    obtain rfl := Except.ok.inj (hlist.symm.trans hlist')
    have hcases {d : Deployment} (hd : store.deployment d.id = .ok d)
        (hactive : d.command? ≠ none) : d = deploying ∨ d = canceling := by
      have hlisted := (hmem d).mpr hd
      simp only [List.mem_cons, List.not_mem_nil, or_false] at hlisted
      rcases hlisted with rfl | rfl | rfl
      · exact Or.inl rfl
      · exact absurd rfl hactive
      · exact Or.inr rfl
    rcases hcases hd hactive with rfl | rfl <;> rcases hcases he hactive' with rfl | rfl
    · exact absurd rfl hne
    · decide
    · decide
    · exact absurd rfl hne
  obtain ⟨ds, hlist', -, horderless⟩ :=
    pass_orderless (w := (store, ())) ⟨.fixed 1, 5⟩ ⟨true, 5⟩ hfiled hapart
  rw [← Except.ok.inj (hlist.symm.trans hlist')] at horderless
  exact ⟨hfiled, hlist, by decide, by decide, horderless⟩

end Updater

end Rollout
