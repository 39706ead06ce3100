import Rollout.Proofs.InstanceTable
import Rollout.Tick.Action

/-!
# Isolation of versions

Whether the calls for one version leave the instances of another alone. They do exactly if the
first version does not shadow the second, that is, if the keys of the second do not begin like
those of the first. Versions without colons in their names never shadow one another. A version
whose name goes on from that of another with a colon is shadowed by it, and is removed with it.
-/

namespace Rollout

open Instance (Shadows)

namespace LocalScheduler

variable {s : LocalScheduler} {store after : Store} {first second subject other : String × String}

/-! ## Reads -/

/-- The instances of a version that is not shadowed can be left out of what is read. -/
theorem instanceList_eq_of_free (h : store.Kept) (hfree : ¬Shadows subject other) :
    store.instanceList subject.1 subject.2 =
      .ok ((store.recorded.filter (·.subject ≠ other)).filter fun i =>
        Shadows subject i.subject) := by
  rw [h.instanceList_eq, List.filter_filter]
  congr 1
  refine List.filter_congr fun i _ => ?_
  by_cases hi : i.subject = other
  · rw [hi, decide_eq_false hfree, Bool.false_and]
  · simp [hi]

private theorem instanceCount_congr {store' : Store}
    (h : store.instanceList subject.1 subject.2 = store'.instanceList subject.1 subject.2) :
    instanceCount store subject.1 subject.2 = instanceCount store' subject.1 subject.2 := by
  rw [instanceCount, instanceCount, h]

private theorem health_congr {store' : Store}
    (h : store.instanceList subject.1 subject.2 = store'.instanceList subject.1 subject.2) :
    health store subject.1 subject.2 = health store' subject.1 subject.2 := by
  rw [health, health, h]

/-! ## Writes -/

/-- What a local scheduler and its store can do to the instances of a version. -/
inductive Writes (s : LocalScheduler) (subject : String × String) (store : Store) :
    Store → Prop where
  | setCount {count : UInt32} {after : Store}
    (h : s.setCount store subject.1 subject.2 count = .ok after) : Writes s subject store after
  | deleteInstances : Writes s subject store (store.deleteInstances subject.1 subject.2).2
  | deleteInstance (index : UInt32) :
    Writes s subject store (store.deleteInstance subject.1 subject.2 index).2
  | markReady {marked : UInt32} {after : Store}
    (h : s.markReady store subject.1 subject.2 = .ok (marked, after)) :
    Writes s subject store after
  | markUnhealthy {index : UInt32} {found : Bool} {after : Store}
    (h : s.markUnhealthy store subject.1 subject.2 index = .ok (found, after)) :
    Writes s subject store after
  | markCrashed {index : UInt32} {found : Bool} {after : Store}
    (h : s.markCrashed store subject.1 subject.2 index = .ok (found, after)) :
    Writes s subject store after

/-- Setting the count of a version changes no instances of one that it does not shadow. -/
theorem recordedOf_setCount (h : store.Kept) (hfree : ¬Shadows subject other) {count : UInt32}
    (hset : s.setCount store subject.1 subject.2 count = .ok after) :
    after.recordedOf other = store.recordedOf other := by
  rw [setCount, h.instanceList_eq] at hset
  dsimp only [bind, Except.bind] at hset
  split at hset
  · rw [← Except.ok.inj hset]
    exact Store.recordedOf_foldl (fun _ hkept _ _ =>
      ⟨hkept.putInstance _, hkept.recordedOf_putInstance hfree⟩) h
  · rw [← Except.ok.inj hset]
    exact Store.recordedOf_foldl (fun _ hkept i _ =>
      ⟨hkept.deleteInstance _ _ i.index, hkept.recordedOf_deleteInstance hfree i.index⟩) h

/-- What is found under a version is shadowed by it. -/
theorem shadows_of_mem_recorded {i : Instance}
    (hi : i ∈ store.recorded.filter fun i => Shadows subject i.subject) :
    Shadows subject i.subject :=
  of_decide_eq_true (List.mem_filter.mp hi).2

/-- Marking a version ready changes no instances of one that it does not shadow. -/
theorem recordedOf_markReady (h : store.Kept) (hfree : ¬Shadows subject other) {marked : UInt32}
    (hmark : s.markReady store subject.1 subject.2 = .ok (marked, after)) :
    after.recordedOf other = store.recordedOf other := by
  rw [markReady, h.instanceList_eq] at hmark
  obtain ⟨-, rfl⟩ := Prod.mk.inj (Except.ok.inj hmark)
  refine Store.recordedOf_foldl (fun _ hkept i hi => ⟨hkept.putInstance _, ?_⟩) h
  have hfound := shadows_of_mem_recorded (List.mem_of_mem_filter hi)
  exact hkept.recordedOf_putInstance fun hshadows => hfree (hfound.trans hshadows)

/-- A change that keeps the version of an instance stays among the instances that are shadowed. -/
theorem recordedOf_mark (h : store.Kept) (hfree : ¬Shadows subject other) {index : UInt32}
    {found : Bool} {change : Instance → Instance}
    (hmark : s.mark store subject.1 subject.2 index change = .ok (found, after))
    (hchange : ∀ i, (change i).subject = i.subject) :
    after.recordedOf other = store.recordedOf other := by
  rw [mark, h.instanceList_eq] at hmark
  dsimp only [bind, Except.bind] at hmark
  split at hmark
  · obtain ⟨-, rfl⟩ := Prod.mk.inj (Except.ok.inj hmark)
    rfl
  · next i hi =>
    obtain ⟨-, rfl⟩ := Prod.mk.inj (Except.ok.inj hmark)
    have hfound := shadows_of_mem_recorded (List.mem_of_find?_eq_some hi)
    refine h.recordedOf_putInstance fun hshadows => hfree (hfound.trans ?_)
    rw [← hchange i]
    exact hshadows

/-- A write for a version leaves the instances of every version that it does not shadow. -/
theorem Writes.recordedOf_eq (hwrites : s.Writes subject store after) (h : store.Kept)
    (hfree : ¬Shadows subject other) : after.recordedOf other = store.recordedOf other := by
  cases hwrites with
  | setCount hset => exact recordedOf_setCount h hfree hset
  | deleteInstances => exact h.recordedOf_deleteInstances hfree
  | deleteInstance index => exact h.recordedOf_deleteInstance hfree index
  | markReady hmark => exact recordedOf_markReady h hfree hmark
  | markUnhealthy hmark => exact recordedOf_mark h hfree hmark fun _ => rfl
  | markCrashed hmark => exact recordedOf_mark h hfree hmark fun _ => rfl

/-! ## Isolation -/

/-- Calls for the first version take no notice of the instances of the second: what is read
does not depend on them, and no write changes them. -/
structure Isolated (s : LocalScheduler) (first second : String × String) : Prop where
  /-- What is read of the first version is the same in tables that differ only in the second. -/
  reads : ∀ store store' : Store, store.Kept → store'.Kept →
    store.recorded.filter (·.subject ≠ second) = store'.recorded.filter (·.subject ≠ second) →
      store.instanceList first.1 first.2 = store'.instanceList first.1 first.2 ∧
      instanceCount store first.1 first.2 = instanceCount store' first.1 first.2 ∧
      health store first.1 first.2 = health store' first.1 first.2
  /-- No write for the first version changes the second. -/
  writes : ∀ store after : Store, store.Kept → s.Writes first store after →
    after.recordedOf second = store.recordedOf second

/-- Calls for a version leave what it does not shadow alone. -/
theorem isolated_of_free (s : LocalScheduler) (hfree : ¬Shadows first second) :
    s.Isolated first second where
  reads store store' h h' hsame := by
    have hlist : store.instanceList first.1 first.2 = store'.instanceList first.1 first.2 := by
      rw [instanceList_eq_of_free h hfree, instanceList_eq_of_free h' hfree, hsame]
    exact ⟨hlist, instanceCount_congr hlist, health_congr hlist⟩
  writes _ _ h hwrites := hwrites.recordedOf_eq h hfree

/-- The one instance of a shadowed version is removed with the version that shadows it. -/
theorem not_isolated_of_shadows (s : LocalScheduler) (hshadows : Shadows first second) :
    ¬s.Isolated first second := by
  intro h
  let i : Instance := s.fresh second.1 second.2 0
  let store := Store.empty.putInstance i
  have hkept : store.Kept := (Store.kept_empty _).putInstance i
  have hwrites := h.writes store _ hkept .deleteInstances
  have hone : store.recordedOf second = [i] := Store.recordedOf_putInstance_empty .empty i
  rw [hkept.recordedOf_deleteInstances_of_shadows hshadows, hone] at hwrites
  cases hwrites

/-- Calls for one version leave another alone exactly if they do not shadow it. -/
theorem isolated_iff_free (s : LocalScheduler) :
    s.Isolated first second ↔ ¬Shadows first second := by
  constructor
  · exact fun h hshadows => s.not_isolated_of_shadows hshadows h
  · exact s.isolated_of_free

/-- Calls for one of two versions without colons in their names leave the other alone. -/
theorem isolated_of_plain (s : LocalScheduler) (hne : first ≠ second)
    (hfirst : ':' ∉ first.1.toList) (hsecond : ':' ∉ second.1.toList)
    (hversion : ':' ∉ second.2.toList) : s.Isolated first second :=
  s.isolated_of_free fun hshadows => hne (hshadows.eq_of_plain hfirst hsecond hversion)

/-! ## The removal of a superseded version -/

private theorem run_finalize {d : Deployment} (hphase : d.phase.isInProgress = true)
    (hconverged : d.deployingInstances = d.desiredWebInstances) (s : LocalScheduler)
    (store : Store) :
    (finalize d).run s.scheduler store =
      (({ d with stableInstances := 0 }.setPhase .deployed, .ok true),
        (store.deleteInstances d.appId d.previousVersion).2) := by
  unfold finalize
  rw [if_pos hphase, if_pos hconverged]
  rfl

/-- With the superseded version go the instances of the new one, or none of them do. -/
theorem recordedOf_finalize {d : Deployment} (h : store.Kept)
    (hphase : d.phase.isInProgress = true)
    (hconverged : d.deployingInstances = d.desiredWebInstances) (s : LocalScheduler) :
    ((finalize d).run s.scheduler store).2.recordedOf (d.appId, d.version) =
      if Shadows (d.appId, d.previousVersion) (d.appId, d.version) then []
      else store.recordedOf (d.appId, d.version) := by
  rw [run_finalize hphase hconverged]
  split
  · next hshadows => exact (h.recordedOf_deleteInstances_of_shadows hshadows :)
  · next hfree => exact (h.recordedOf_deleteInstances hfree :)

/-- Calls for one version take no notice of another exactly if it is not shadowed. It never is
when neither application nor the second version has a colon in its name. The end of a rollout
keeps all instances of the new version, unless its name goes on from that of the superseded
version with a colon; then it keeps none. -/
theorem isolation (s : LocalScheduler) :
    (∀ first second, s.Isolated first second ↔ ¬Shadows first second) ∧
    (∀ first second : String × String, first ≠ second → ':' ∉ first.1.toList →
      ':' ∉ second.1.toList → ':' ∉ second.2.toList → s.Isolated first second) ∧
    ∀ (d : Deployment) (store : Store), store.Kept → d.phase.isInProgress = true →
      d.deployingInstances = d.desiredWebInstances →
      ((finalize d).run s.scheduler store).2.recordedOf (d.appId, d.version) =
        if d.previousVersion.toList ++ [':'] <+: d.version.toList ++ [':'] then []
        else store.recordedOf (d.appId, d.version) := by
  refine ⟨fun _ _ => s.isolated_iff_free, fun _ _ hne hfirst hsecond hversion =>
    s.isolated_of_plain hne hfirst hsecond hversion, ?_⟩
  intro d store h hphase hconverged
  rw [recordedOf_finalize h hphase hconverged]
  simp only [Instance.shadows_of_app]

/-- A rollout from the version `web` to the version `web:2` is accepted, and ends with no instance
of either. -/
theorem not_isolated_of_colon :
    let request : Request := ⟨"shop-2", "shop", "web:2", "web", 1, 1, none⟩
    let d : Deployment := { Deployment.begin request 0 with deployingInstances := 1 }
    let s : LocalScheduler := ⟨true, 0⟩
    let store := Store.empty.putInstance (s.fresh "shop" "web:2" 0)
    Deployment.new request 0 = .ok (Deployment.begin request 0) ∧
    ¬s.Isolated ("shop", "web") ("shop", "web:2") ∧
    store.recordedOf ("shop", "web:2") = [s.fresh "shop" "web:2" 0] ∧
    ((finalize d).run s.scheduler store).1.2 = .ok true ∧
    ((finalize d).run s.scheduler store).2.recordedOf ("shop", "web:2") = [] := by
  intro request d s store
  have hfault : request.fault? = none := by decide
  have hnew : Deployment.new request 0 = .ok (Deployment.begin request 0) := by
    rw [Deployment.new, hfault]
  have hshadows : Shadows ("shop", "web") ("shop", "web:2") := by decide
  have hkept : store.Kept := (Store.kept_empty _).putInstance _
  refine ⟨hnew, s.not_isolated_of_shadows hshadows, Store.recordedOf_putInstance_empty _ _, ?_, ?_⟩
  · exact congrArg (·.1.2) (run_finalize (d := d) rfl rfl s store)
  · have hend := recordedOf_finalize (d := d) hkept rfl rfl s
    exact hend.trans (if_pos hshadows)

end LocalScheduler

end Rollout
