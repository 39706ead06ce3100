import Mathlib.Tactic.ByContra
import Mathlib.Tactic.SplitIfs
import Rollout.Store.Basic

/-!
# The order of keys

The keys of a table stand in the order of their code points. This is the order of their UTF-8
bytes, in which a database keeps them: a character with a higher code point is told from a lower one
at a byte that both have. The keys that begin with a given text stand one after another, and a scan
that starts there and stops at the first other key finds them all.
-/

namespace Rollout

/-! ## Bytes -/

/-- The UTF-8 bytes of a key. -/
def keyBytes (key : String) : List UInt8 :=
  key.toByteArray.data.toList

private theorem keyBytes_eq_flatMap (key : String) :
    keyBytes key = key.toList.flatMap String.utf8EncodeChar := by
  rw [keyBytes, ← String.utf8Encode_toList, List.utf8Encode, List.toList_data_toByteArray]

private theorem ofNat_cons_lt {a b : Nat} (ha : a < 256) (hb : b < 256) (rest rest' : List UInt8) :
    UInt8.ofNat a :: rest < UInt8.ofNat b :: rest' ↔ a < b ∨ a = b ∧ rest < rest' := by
  rw [List.cons_lt_cons_iff, UInt8.lt_iff_toNat_lt, ← UInt8.toNat_inj, UInt8.toNat_ofNat',
    UInt8.toNat_ofNat', Nat.mod_eq_of_lt ha, Nat.mod_eq_of_lt hb]

/-- The bytes of a lower character come before those of a higher one, whatever follows. -/
theorem utf8EncodeChar_append_lt {c d : Char} (h : c < d) (rest rest' : List UInt8) :
    String.utf8EncodeChar c ++ rest < String.utf8EncodeChar d ++ rest' := by
  have hlt : c.val.toNat < d.val.toNat := h
  have hd : d.val.toNat < 0x110000 := by
    rcases d.valid with h | h
    · exact Nat.lt_trans h (by decide)
    · exact h.2
  -- The bytes are the digits of the code point to the base 64, behind marks for their number.
  have hdigits (n : Nat) (hn : n < 0x110000) :
      n / 64 / 64 = n / 4096 ∧ n / 4096 / 64 = n / 262144 ∧ n / 262144 % 8 = n / 262144 :=
    ⟨Nat.div_div_eq_div_mul n 64 64, Nat.div_div_eq_div_mul n 4096 64, Nat.mod_eq_of_lt (by omega)⟩
  unfold String.utf8EncodeChar
  generalize c.val.toNat = v at hlt ⊢
  generalize d.val.toNat = w at hlt hd ⊢
  have hv := hdigits v (by omega)
  have hw := hdigits w hd
  dsimp only
  rw [hv.2.2, hw.2.2]
  split_ifs
  all_goals
    simp (disch := omega) only [List.cons_append, List.nil_append, ofNat_cons_lt]
    omega

/-- Texts in the order of their characters are in the order of their bytes. -/
theorem flatMap_utf8EncodeChar_lt {a b : List Char} (h : a < b) :
    a.flatMap String.utf8EncodeChar < b.flatMap String.utf8EncodeChar := by
  induction a generalizing b with
  | nil =>
    cases b with
    | nil => exact absurd h (List.not_lt_nil _)
    | cons d b =>
      obtain ⟨byte, bytes, hbytes⟩ := List.exists_cons_of_ne_nil (@String.utf8EncodeChar_ne_nil d)
      rw [List.flatMap_nil, List.flatMap_cons, hbytes]
      exact List.nil_lt_cons _ _
  | cons c a ih =>
    cases b with
    | nil => exact absurd h (List.not_lt_nil _)
    | cons d b =>
      rw [List.flatMap_cons, List.flatMap_cons]
      rcases List.cons_lt_cons_iff.mp h with hlt | ⟨rfl, hlt⟩
      · exact utf8EncodeChar_append_lt hlt _ _
      · exact List.append_left_lt (ih hlt)

/-- Keys stand in the order of their bytes. -/
theorem keyBytes_lt_iff {a b : String} : keyBytes a < keyBytes b ↔ a < b := by
  have hmono {a b : String} (h : a < b) : keyBytes a < keyBytes b := by
    rw [keyBytes_eq_flatMap, keyBytes_eq_flatMap]
    exact flatMap_utf8EncodeChar_lt (String.lt_iff.mp h)
  refine ⟨fun h => ?_, hmono⟩
  by_contra hnot
  by_cases heq : a = b
  · rw [heq] at h
    exact List.lt_irrefl _ h
  · exact List.lt_asymm h (hmono (Table.lt_of_not_lt_of_ne hnot heq))

/-! ## Keys that begin alike -/

/-- Whatever stands between a text and a key that begins with it begins with it too. -/
theorem prefix_of_between {start a b : List Char} (hfrom : ¬a < start) (hto : a < b)
    (h : start <+: b) : start <+: a := by
  induction start generalizing a b with
  | nil => exact List.nil_prefix
  | cons c start ih =>
    cases b with
    | nil => exact absurd hto (List.not_lt_nil _)
    | cons d b =>
      obtain ⟨rfl, hstarts⟩ := List.cons_prefix_cons.mp h
      cases a with
      | nil => exact absurd (List.nil_lt_cons _ _) hfrom
      | cons first a =>
        rw [List.cons_lt_cons_iff] at hfrom hto
        rcases hto with hlower | ⟨rfl, hto⟩
        · exact absurd (Or.inl hlower) hfrom
        · have hfrom : ¬a < start := fun hlower => hfrom (Or.inr ⟨rfl, hlower⟩)
          exact List.cons_prefix_cons.mpr ⟨rfl, ih hfrom hto hstarts⟩

/-- What is taken as long as a property holds is all that has the property, if nothing has it behind
something that does not. -/
theorem takeWhile_eq_filter {α : Type} {p : α → Bool} {l : List α}
    (h : l.Pairwise fun a b => p b = true → p a = true) : l.takeWhile p = l.filter p := by
  induction l with
  | nil => rfl
  | cons a l ih =>
    obtain ⟨hfirst, hrest⟩ := List.pairwise_cons.mp h
    by_cases ha : p a = true
    · rw [List.takeWhile_cons_of_pos ha, List.filter_cons_of_pos ha, ih hrest]
    · have hnone : l.filter p = [] := by
        rw [List.filter_eq_nil_iff]
        intro b hb hpb
        exact ha (hfirst b hb hpb)
      rw [List.takeWhile_cons_of_neg ha, List.filter_cons_of_neg ha, hnone]

/-- In a list whose beginning has a property, dropping that beginning is filtering it out. -/
theorem dropWhile_eq_filter {α : Type} {p : α → Bool} {l : List α}
    (h : l.Pairwise fun a b => p b = true → p a = true) : l.dropWhile p = l.filter (!p ·) := by
  induction l with
  | nil => rfl
  | cons a l ih =>
    obtain ⟨hfirst, hrest⟩ := List.pairwise_cons.mp h
    by_cases ha : p a = true
    · rw [List.dropWhile_cons_of_pos ha, List.filter_cons_of_neg (by simp [ha]), ih hrest]
    · have hall : l.filter (!p ·) = l := by
        rw [List.filter_eq_self]
        intro b hb
        simpa using mt (hfirst b hb) ha
      rw [List.dropWhile_cons_of_neg ha, List.filter_cons_of_pos (by simpa using ha), hall]

namespace Table

variable {α : Type}

/-- A scan from a text on, as long as the keys begin with it, finds all the entries whose keys
do. -/
theorem scan_startsWith (t : Table α) (start : String) {p : String → Bool}
    (hp : ∀ key, p key = true ↔ start.toList <+: key.toList) :
    t.scan start p = t.entries.filter (p ·.1) := by
  have hlower : t.entries.Pairwise fun a b => decide (b.1 < start) = true →
      decide (a.1 < start) = true := by
    apply t.sorted.imp
    intro a b hlt hb
    rw [decide_eq_true_iff] at hb ⊢
    exact String.lt_trans hlt hb
  have hstarts : (t.entries.filter fun entry => !decide (entry.1 < start)).Pairwise fun a b =>
      p b.1 = true → p a.1 = true := by
    rw [List.pairwise_filter]
    apply t.sorted.imp
    intro a b hlt hfrom _ hb
    rw [hp] at hb ⊢
    have hfrom : ¬a.1 < start := by simpa using hfrom
    exact prefix_of_between hfrom hlt hb
  calc t.scan start p
      = (t.entries.filter fun entry => !decide (entry.1 < start)).takeWhile (p ·.1) := by
        rw [scan, dropWhile_eq_filter hlower]
    _ = (t.entries.filter fun entry => !decide (entry.1 < start)).filter (p ·.1) :=
        takeWhile_eq_filter hstarts
    _ = t.entries.filter (p ·.1) := by
        rw [List.filter_filter]
        apply List.filter_congr
        intro entry _
        by_cases hentry : p entry.1 = true
        · have hfrom : ¬entry.1 < start := ((hp _).mp hentry).le
          simp [hentry, hfrom]
        · simp [hentry]

/-- Removing keys one after another leaves the other entries. -/
theorem entries_foldl_erase (t : Table α) (keys : List String) :
    (keys.foldl erase t).entries = t.entries.filter fun entry => decide (entry.1 ∉ keys) := by
  induction keys generalizing t with
  | nil => exact (List.filter_eq_self.mpr fun _ _ => rfl).symm
  | cons key keys ih =>
    rw [List.foldl_cons, ih, erase, List.filter_filter]
    apply List.filter_congr
    intro entry _
    by_cases hkey : entry.1 = key
    · simp [hkey]
    · simp [hkey]

end Table

namespace Store

/-- A key counts as one of a version if it begins as the keys of that version do. -/
theorem isKeyOf_iff {appId version key : String} :
    isKeyOf appId version key = true ↔ (Instance.keyStart appId version).toList <+: key.toList :=
  List.isPrefixOf_iff_prefix

variable (store : Store) (appId version : String)

/-- The entries of a version are those whose keys begin as its keys do. -/
theorem instanceEntries_eq :
    store.instanceEntries appId version =
      store.instances.entries.filter (isKeyOf appId version ·.1) := by
  apply Table.scan_startsWith
  intro key
  exact isKeyOf_iff

/-- Removing a version leaves the entries whose keys do not begin as its keys do. -/
theorem entries_deleteInstances :
    (store.deleteInstances appId version).2.instances.entries =
      store.instances.entries.filter (!isKeyOf appId version ·.1) := by
  unfold deleteInstances
  rw [Table.entries_foldl_erase, instanceEntries_eq]
  apply List.filter_congr
  intro entry hentry
  have hmem : entry.1 ∈ (store.instances.entries.filter (isKeyOf appId version ·.1)).map Prod.fst ↔
      isKeyOf appId version entry.1 = true := by
    rw [List.mem_map]
    constructor
    · rintro ⟨other, hother, heq⟩
      rw [← heq]
      exact (List.mem_filter.mp hother).2
    · intro hkey
      exact ⟨entry, List.mem_filter.mpr ⟨hentry, hkey⟩, rfl⟩
  by_cases hkey : isKeyOf appId version entry.1 = true
  · simp [hkey, hmem.mpr hkey]
  · simp [hkey, mt hmem.mp hkey]

end Store

end Rollout
