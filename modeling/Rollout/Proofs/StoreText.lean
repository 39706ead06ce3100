import Rollout.Proofs.Records
import Rollout.Store.Text

/-!
# Stores read back

The text of a store holds just that store, whatever its keys and the texts under them are. The
members of a table are written in the order of their keys, so each of them is placed behind those
that were read before it.
-/

namespace Rollout

namespace Table

/-- A table is the list of its entries. -/
@[ext] theorem ext {α : Type} {a b : Table α} (h : a.entries = b.entries) : a = b := by
  obtain ⟨entries, sorted⟩ := a
  obtain rfl : entries = b.entries := h
  rfl

/-- An entry with a higher key than all others is placed behind them. -/
theorem place_of_last {α : Type} {key : String} {value : α} {entries : List (String × α)}
    (h : ∀ entry ∈ entries, entry.1 < key) :
    place key value entries = entries ++ [(key, value)] := by
  induction entries with
  | nil => rfl
  | cons entry rest ih =>
    obtain ⟨hfirst, hrest⟩ := List.forall_mem_cons.mp h
    have hne : key ≠ entry.1 := by
      rintro rfl
      exact String.lt_irrefl _ hfirst
    unfold place
    rw [if_neg (String.lt_asymm hfirst), if_neg hne, ih hrest]
    rfl

/-- The members that are left are added behind those that have been read. -/
theorem foldlM_addMember {done rest : List (String × String)} {t : Table String}
    (hdone : t.entries = done) (hsorted : (done ++ rest).Pairwise fun a b => a.1 < b.1) :
    ∃ read, (rest.map fun entry => (some entry.1, Json.text entry.2)).foldlM addMember? t =
      some read ∧ read.entries = done ++ rest := by
  induction rest generalizing done t with
  | nil => exact ⟨t, rfl, hdone.trans (List.append_nil done).symm⟩
  | cons entry rest ih =>
    have hplaced : (t.insert entry.1 entry.2).entries = done ++ [entry] := by
      have hlast : ∀ other ∈ t.entries, other.1 < entry.1 := by
        intro other hother
        rw [hdone] at hother
        exact (List.pairwise_append.mp hsorted).2.2 other hother entry List.mem_cons_self
      rw [← hdone]
      exact place_of_last hlast
    rw [List.append_cons] at hsorted ⊢
    exact ih hplaced hsorted

/-- A table is read back as it was. -/
theorem ofJson?_toJson (t : Table String) : ofJson? t.toJson = some t := by
  have hmembers :
      t.toJson = .object (t.entries.map fun entry => (some entry.1, .text entry.2)) := by
    simp [toJson, Json.record]
  obtain ⟨read, hread, hentries⟩ := foldlM_addMember (t := .empty) rfl t.sorted
  rw [hmembers, ofJson?, hread, ext hentries]

end Table

namespace Store

/-- The text of a store holds that store. -/
theorem ofText?_toText (store : Store) : ofText? store.toText = some store := by
  have hnamed : Json.Record.Named ["deployments", "instances"] []
      [("deployments", store.deployments.toJson), ("instances", store.instances.toJson)] :=
    ⟨by simp, .refl _⟩
  have hparse : Json.parse? store.toText = some (Json.record
      [("deployments", store.deployments.toJson), ("instances", store.instances.toJson)]) :=
    Json.parse_compact _
  have hfilled : store.toText.isEmpty = false := by
    rw [← Bool.not_eq_true, String.isEmpty_iff]
    intro hempty
    have hnone : Json.parse? "" = none := by decide +kernel
    rw [hempty, hnone] at hparse
    cases hparse
  rw [ofText?, hfilled, hparse]
  simp (disch := decide) only [Bool.false_eq_true, if_false, Json.Record.some_bind,
    Json.Record.ofJson?_record, (Json.Record.rearranged_self _).required_eq hnamed (by simp),
    lookup_cons_eq_ite, String.reduceEq, if_true, Option.bind_some, Table.ofJson?_toJson,
    Option.pure_def]

end Store

end Rollout
