import Mathlib.Data.List.Sort
import Mathlib.Logic.Function.Basic
import Rollout.Proofs.KeyOrder
import Rollout.Proofs.StoredRecord

/-!
# Tables as maps

A table of texts stands for a map from keys to records: under each key it has the text of the record
that the map has there, and nothing else. The operations of tables are those of the map, and the
records that a table lists are those of the map in the order of the bytes of their keys, which
leaves only one way to list them.
-/

namespace Rollout

/-! ## Listings -/

/-- The entries of a map, each once, in the order of the bytes of their keys. -/
structure Lists {α : Type} (map : String → Option α) (entries : List (String × α)) : Prop where
  /-- The entries are in the order of their keys. -/
  ordered : entries.Pairwise fun a b => keyBytes a.1 < keyBytes b.1
  /-- They are the entries of the map. -/
  holds : ∀ key a, (key, a) ∈ entries ↔ map key = some a

/-- There is only one listing of a map. -/
theorem Lists.unique {α : Type} {map : String → Option α} {entries entries' : List (String × α)}
    (h : Lists map entries) (h' : Lists map entries') : entries = entries' := by
  have : Std.Asymm fun a b : String × α => keyBytes a.1 < keyBytes b.1 :=
    ⟨fun _ _ => List.lt_asymm⟩
  refine h.ordered.eq_of_mem_iff h'.ordered fun ⟨key, a⟩ => ?_
  rw [h.holds, h'.holds]

namespace Table

/-! ## Reading entries -/

section

variable {α : Type} (t : Table α)

/-- The value of a key is that of its only entry. -/
theorem mem_entries_iff (key : String) (value : α) :
    (key, value) ∈ t.entries ↔ t.get? key = some value := by
  unfold get?
  have hsorted := t.sorted
  generalize t.entries = entries at hsorted ⊢
  induction entries with
  | nil => simp
  | cons entry rest ih =>
    obtain ⟨hfirst, hrest⟩ := List.pairwise_cons.mp hsorted
    have ih : (key, value) ∈ rest ↔ rest.lookup key = some value := ih hrest
    rw [List.mem_cons, lookup_cons_eq_ite, ih]
    by_cases hkey : key = entry.1
    · have hnone : rest.lookup key ≠ some value := by
        intro hlater
        have hlt := hfirst _ (ih.mpr hlater)
        rw [hkey] at hlt
        exact String.lt_irrefl _ hlt
      rw [if_pos hkey, or_iff_left hnone, Option.some_inj, Prod.ext_iff]
      exact ⟨fun h => h.2.symm, fun h => ⟨hkey, h.symm⟩⟩
    · have hother : (key, value) ≠ entry := by
        rintro rfl
        exact hkey rfl
      rw [if_neg hkey, or_iff_right hother]

/-- A table with some of the entries has their values. -/
theorem get?_of_filter {part : Table α} {p : String → Bool}
    (h : part.entries = t.entries.filter (p ·.1)) (key : String) :
    part.get? key = if p key then t.get? key else none := by
  apply Option.ext
  intro value
  rw [← mem_entries_iff, h, List.mem_filter, mem_entries_iff]
  by_cases hkey : p key = true
  · simp [hkey]
  · simp [hkey]

/-- After a key is erased all others are found as before. -/
theorem get?_erase (key other : String) :
    (t.erase key).get? other = if other = key then none else t.get? other := by
  rw [t.get?_of_filter (p := (· != key)) rfl]
  by_cases hother : other = key
  · simp [hother]
  · simp [hother]

end

/-! ## Tables of texts -/

/-- A table has under each key the text of what a map has there. -/
def Represents {α : Type} (write : α → String) (t : Table String) (map : String → Option α) :
    Prop :=
  ∀ key, t.get? key = (map key).map write

variable {α : Type} {write : α → String} {t : Table String} {map : String → Option α}

/-- The empty table represents the map without entries. -/
theorem represents_empty (write : α → String) : Represents write .empty fun _ => none :=
  fun _ => rfl

/-- Inserting an entry writes it into the map. -/
theorem Represents.insert (h : t.Represents write map) (key : String) (a : α) :
    (t.insert key (write a)).Represents write (Function.update map key (some a)) := by
  intro other
  rw [get?_insert, Function.update_apply, h other]
  split
  · rfl
  · rfl

/-- Erasing a key takes it out of the map. -/
theorem Represents.erase (h : t.Represents write map) (key : String) :
    (t.erase key).Represents write (Function.update map key none) := by
  intro other
  rw [get?_erase, Function.update_apply, h other]
  split
  · rfl
  · rfl

/-- Some of the entries represent the part of the map under their keys. -/
theorem Represents.part (h : t.Represents write map) {part : Table String} {p : String → Bool}
    (hpart : part.entries = t.entries.filter (p ·.1)) :
    part.Represents write fun key => if p key then map key else none := by
  intro key
  rw [t.get?_of_filter hpart, h key]
  dsimp only
  split
  · rfl
  · rfl

/-- A table that represents a map lists it. -/
theorem Represents.lists (h : t.Represents write map) :
    ∃ entries, t.entries = entries.map (fun entry => (entry.1, write entry.2)) ∧
      Lists map entries := by
  have hread (entry : String × String) (hentry : entry ∈ t.entries) :
      ∃ a, map entry.1 = some a ∧ write a = entry.2 := by
    have hvalue := (h entry.1).symm.trans ((t.mem_entries_iff entry.1 entry.2).mp hentry)
    exact Option.map_eq_some_iff.mp hvalue
  refine ⟨t.entries.filterMap fun entry => (map entry.1).map fun a => (entry.1, a), ?_, ?_, ?_⟩
  · rw [List.map_filterMap]
    symm
    refine (List.filterMap_congr fun entry hentry => ?_).trans List.filterMap_some
    obtain ⟨a, ha, hwrite⟩ := hread entry hentry
    rw [ha, Option.map_some, Option.map_some, hwrite]
  · rw [List.pairwise_filterMap]
    apply t.sorted.imp
    intro entry entry' hlt listed hlisted listed' hlisted'
    obtain ⟨a, -, rfl⟩ := Option.map_eq_some_iff.mp hlisted
    obtain ⟨a', -, rfl⟩ := Option.map_eq_some_iff.mp hlisted'
    exact keyBytes_lt_iff.mpr hlt
  · intro key a
    rw [List.mem_filterMap]
    constructor
    · rintro ⟨entry, -, hlisted⟩
      obtain ⟨a', ha', heq⟩ := Option.map_eq_some_iff.mp hlisted
      obtain ⟨rfl, rfl⟩ := Prod.mk.inj heq
      exact ha'
    · intro ha
      have hvalue : t.get? key = some (write a) := by rw [h key, ha, Option.map_some]
      refine ⟨(key, write a), (t.mem_entries_iff key _).mpr hvalue, ?_⟩
      rw [ha, Option.map_some]

end Table

end Rollout
