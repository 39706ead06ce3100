import Mathlib.Data.Char
import Mathlib.Data.Fintype.Card
import Rollout.Proofs.Roster

/-!
# Indexes beyond the padding

The index in a key is padded to six digits, so a key with a longer index comes before keys with
shorter ones if it begins with lower digits. Here the order of any two keys of a version is told
from their indexes, and from that, which tables list a version in the order of its indexes. Where
they do, the local scheduler brings the version to any number of instances: it removes those with
the highest indexes, and writes over none.
-/

namespace Rollout

/-! ## Padded numerals of any length -/

namespace Text

private theorem le_appendDigits (n : Nat) (cs : List Char) :
    n * 10 ^ cs.length ≤ appendDigits n cs := by
  induction cs generalizing n with
  | nil => simp [appendDigits]
  | cons c cs ih =>
    calc n * 10 ^ (cs.length + 1) = 10 * n * 10 ^ cs.length := by
          rw [Nat.pow_succ, Nat.mul_comm _ 10, ← Nat.mul_assoc, Nat.mul_comm n]
      _ ≤ (10 * n + digitValue c) * 10 ^ cs.length :=
          Nat.mul_le_mul_right _ (Nat.le_add_right _ _)
      _ ≤ appendDigits (10 * n + digitValue c) cs := ih _

private theorem appendDigits_lt_succ (n : Nat) {cs : List Char}
    (hdigits : ∀ c ∈ cs, isDigit c = true) :
    appendDigits n cs < (n + 1) * 10 ^ cs.length := by
  induction cs generalizing n with
  | nil => simp [appendDigits]
  | cons c cs ih =>
    obtain ⟨hc, hcs⟩ := List.forall_mem_cons.mp hdigits
    have hle := digitValue_le hc
    calc appendDigits (10 * n + digitValue c) cs
        < (10 * n + digitValue c + 1) * 10 ^ cs.length := ih _ hcs
      _ ≤ 10 * (n + 1) * 10 ^ cs.length := Nat.mul_le_mul_right _ (by omega)
      _ = (n + 1) * 10 ^ (cs.length + 1) := by
          rw [Nat.pow_succ, Nat.mul_comm _ 10, ← Nat.mul_assoc, Nat.mul_comm (n + 1)]

/-- What begins with lower digits stays lower when it is brought to the length of the other. -/
theorem shifted_appendDigits_lt {n n' : Nat} (h : n < n') {cs cs' : List Char} {more : Nat}
    (hlength : cs.length + more = cs'.length) (hdigits : ∀ c ∈ cs, isDigit c = true) :
    appendDigits n cs * 10 ^ more < appendDigits n' cs' :=
  calc appendDigits n cs * 10 ^ more
      < (n + 1) * 10 ^ cs.length * 10 ^ more :=
        Nat.mul_lt_mul_of_pos_right (appendDigits_lt_succ n hdigits) (Nat.pow_pos (by decide))
    _ = (n + 1) * 10 ^ cs'.length := by rw [← hlength, Nat.pow_add, Nat.mul_assoc]
    _ ≤ n' * 10 ^ cs'.length := Nat.mul_le_mul_right _ h
    _ ≤ appendDigits n' cs' := le_appendDigits n' cs'

/-- What begins with lower digits stays lower when the other is brought to its length. -/
theorem appendDigits_lt_shifted {n n' : Nat} (h : n < n') {cs cs' : List Char} {more : Nat}
    (hlength : cs'.length + more = cs.length) (hdigits : ∀ c ∈ cs, isDigit c = true) :
    appendDigits n cs < appendDigits n' cs' * 10 ^ more :=
  calc appendDigits n cs < (n + 1) * 10 ^ cs.length := appendDigits_lt_succ n hdigits
    _ ≤ n' * 10 ^ cs.length := Nat.mul_le_mul_right _ h
    _ = n' * 10 ^ cs'.length * 10 ^ more := by rw [← hlength, Nat.pow_add, Nat.mul_assoc]
    _ ≤ appendDigits n' cs' * 10 ^ more := Nat.mul_le_mul_right _ (le_appendDigits n' cs')

/-- A longer numeral does not come before a shorter one exactly if that, with zeros behind it up to
the same length, denotes no more. -/
theorem not_lt_iff_appendDigits (n : Nat) {cs cs' : List Char} (hlength : cs.length ≤ cs'.length)
    (hdigits : ∀ c ∈ cs, isDigit c = true) (hdigits' : ∀ c ∈ cs', isDigit c = true) :
    ¬cs' < cs ↔ appendDigits n cs * 10 ^ (cs'.length - cs.length) ≤ appendDigits n cs' := by
  induction cs generalizing n cs' with
  | nil => exact iff_of_true (List.not_lt_nil _) (le_appendDigits n cs')
  | cons c cs ih =>
    cases cs' with
    | nil => simp at hlength
    | cons c' cs' =>
      obtain ⟨hc, hcs⟩ := List.forall_mem_cons.mp hdigits
      obtain ⟨hc', hcs'⟩ := List.forall_mem_cons.mp hdigits'
      have hrest : cs.length ≤ cs'.length := Nat.le_of_succ_le_succ hlength
      have hmore : cs.length + (cs'.length - cs.length) = cs'.length := Nat.add_sub_of_le hrest
      rw [List.length_cons, List.length_cons, Nat.add_sub_add_right, List.cons_lt_cons_iff]
      show _ ↔ appendDigits (10 * n + digitValue c) cs * _ ≤
        appendDigits (10 * n + digitValue c') cs'
      rcases lt_trichotomy c c' with hlt | rfl | hlt
      · have hstart : 10 * n + digitValue c < 10 * n + digitValue c' :=
          Nat.add_lt_add_left (digitValue_lt hc hlt) _
        refine iff_of_true ?_ (Nat.le_of_lt (shifted_appendDigits_lt hstart hmore hcs))
        rintro (hgt | ⟨rfl, -⟩)
        · exact Char.lt_asymm hlt hgt
        · exact Char.lt_irrefl _ hlt
      · simpa [Char.lt_irrefl] using ih (10 * n + digitValue c) hrest hcs hcs'
      · have hstart : 10 * n + digitValue c' < 10 * n + digitValue c :=
          Nat.add_lt_add_left (digitValue_lt hc' hlt) _
        exact iff_of_false (not_not_intro (Or.inl hlt))
          (Nat.not_le.mpr (appendDigits_lt_shifted hstart hmore hcs'))

private theorem length_digits_mono {n m : Nat} (h : n ≤ m) :
    (digits n).length ≤ (digits m).length := by
  induction m using Nat.strongRecOn generalizing n with
  | _ m ih =>
    rw [digits.eq_def m]
    split
    · next hm =>
      rw [digits, if_pos (Nat.lt_of_le_of_lt h hm)]
      exact Nat.le_refl 1
    · next hm =>
      rw [List.length_append]
      rw [digits.eq_def n]
      split
      · exact Nat.le_add_left 1 _
      · have hshorter := ih (m / 10) (by omega) (Nat.div_le_div_right h)
        rw [List.length_append]
        exact Nat.add_le_add_right hshorter 1

/-- The length of a numeral that is padded to a width. -/
theorem length_padded_eq (width n : Nat) :
    (padded width n).toList.length = max width (digits n).length := by
  rw [padded, String.toList_ofList, List.length_append, List.length_replicate]
  omega

/-- Of two padded numerals, that of the lower number comes first exactly if it denotes no more than
the other, with zeros behind it up to the same length. -/
theorem padded_lt_iff {width n m : Nat} (h : n < m) :
    (padded width n).toList < (padded width m).toList ↔
      n * 10 ^ (max width (digits m).length - max width (digits n).length) ≤ m := by
  have hlength : (padded width n).toList.length ≤ (padded width m).toList.length := by
    have := length_digits_mono (Nat.le_of_lt h)
    rw [length_padded_eq, length_padded_eq]
    omega
  have hnot := not_lt_iff_appendDigits 0 hlength (fun c => isDigit_of_mem_padded)
    fun c => isDigit_of_mem_padded
  have hvalue (k : Nat) : appendDigits 0 (padded width k).toList = k := ofDigits_padded width k
  rw [hvalue, hvalue, length_padded_eq, length_padded_eq] at hnot
  rw [← hnot]
  refine ⟨List.lt_asymm, fun hge => ?_⟩
  by_contra hlt
  have heq : (padded width n).toList = (padded width m).toList := List.le_antisymm hge hlt
  exact Nat.ne_of_lt h (padded_injective width (String.toList_inj.mp heq))

end Text

/-! ## Keys -/

namespace Instance

/-- How many characters of a key are the index. -/
def indexWidth (index : UInt32) : Nat :=
  max 6 (Text.digits index.toNat).length

/-- An index, with zeros behind it up to the width of another one, is no more than that. -/
def Precedes (index other : UInt32) : Prop :=
  index.toNat * 10 ^ (indexWidth other - indexWidth index) ≤ other.toNat

/-- The order of two keys can be computed from their indexes. -/
instance (index other : UInt32) : Decidable (Precedes index other) :=
  inferInstanceAs (Decidable (_ ≤ _))

variable {subject : String × String} {index other : UInt32}

/-- **The order of two keys of a version.** The lower index comes first exactly if it precedes the
other also with zeros behind it. -/
theorem keyOf_lt_iff (h : index < other) :
    keyOf subject.1 subject.2 index < keyOf subject.1 subject.2 other ↔ Precedes index other := by
  have hnumerals : (Text.padded 6 index.toNat).toList < (Text.padded 6 other.toNat).toList ↔
      Precedes index other := Text.padded_lt_iff (UInt32.lt_iff_toNat_lt.mp h)
  rw [String.lt_iff, toList_keyOf, toList_keyOf]
  exact Iff.trans ⟨lt_of_append_lt, List.append_left_lt⟩ hnumerals

private theorem indexWidth_of_lt (h : index.toNat < indexLimit) : indexWidth index = 6 :=
  Nat.max_eq_left (Text.length_digits_le h)

/-- Below a million keys stand in the order of the indexes. -/
theorem precedes_of_lt (hother : other.toNat < indexLimit) (h : index < other) :
    Precedes index other := by
  have hlt := UInt32.lt_iff_toNat_lt.mp h
  rw [Precedes, indexWidth_of_lt hother, indexWidth_of_lt (Nat.lt_trans hlt hother), Nat.sub_self,
    Nat.pow_zero, Nat.mul_one]
  exact Nat.le_of_lt hlt

/-- Within a version, a key tells the index. -/
theorem index_eq_of_keyOf_eq
    (h : keyOf subject.1 subject.2 index = keyOf subject.1 subject.2 other) : index = other := by
  have hdigits := congrArg String.toList h
  rw [toList_keyOf, toList_keyOf, List.append_cancel_left_eq, String.toList_inj] at hdigits
  exact UInt32.toNat_inj.mp (Text.padded_injective 6 hdigits)

end Instance

/-! ## Parts of ordered lists -/

namespace Roster

variable {roster : List Instance} {i : Instance} {count : Nat}

/-- In an ordered list the first instances have lower indexes than the others. -/
theorem Ordered.take_lt_drop (h : Ordered roster) (count : Nat) :
    ∀ i ∈ roster.take count, ∀ j ∈ roster.drop count, i.index < j.index := by
  rw [← List.take_append_drop count roster] at h
  exact (List.pairwise_append.mp h).2.2

private theorem Ordered.mem_take_iff (h : Ordered roster) :
    i ∈ roster.take count ↔ i ∈ roster ∧ i ∉ roster.drop count := by
  constructor
  · intro hi
    refine ⟨List.mem_of_mem_take hi, fun hdrop => ?_⟩
    exact UInt32.lt_irrefl _ (h.take_lt_drop count i hi i hdrop)
  · rintro ⟨hi, hdrop⟩
    rw [← List.take_append_drop count roster, List.mem_append] at hi
    exact hi.resolve_right hdrop

end Roster

/-! ## Listings -/

namespace Store

open Instance (Shadows Precedes indexLimit)
open Roster (Ordered additions free)

/-- Nothing is found under a version but its own instances. -/
def Unmixed (store : Store) (subject : String × String) : Prop :=
  ∀ i ∈ store.recorded, Shadows subject i.subject → i.subject = subject

variable {store : Store} {subject : String × String} {i j : Instance}

/-- A version that is not mixed with another is listed as it is recorded. -/
theorem Kept.instanceList_of_unmixed (h : store.Kept) (hunmixed : store.Unmixed subject) :
    store.instanceList subject.1 subject.2 = .ok (store.recordedOf subject) := by
  rw [h.instanceList_eq, recordedOf]
  congr 1
  refine List.filter_congr fun i hi => ?_
  rw [decide_eq_decide]
  constructor
  · exact hunmixed i hi
  · rintro rfl
    exact .refl _

/-- An instance is told by its key. -/
theorem Kept.eq_of_key (h : store.Kept) (hi : i ∈ store.recorded) (hj : j ∈ store.recorded)
    (hkey : i.key = j.key) : i = j := by
  have htext := h.mem_recorded.mp hi
  rw [hkey, h.mem_recorded.mp hj] at htext
  have hread := congrArg Instance.ofText? (Option.some.inj htext)
  rw [Instance.ofText?_toText, Instance.ofText?_toText] at hread
  exact (Option.some.inj hread).symm

private theorem key_of_mem_recordedOf (hi : i ∈ store.recordedOf subject) :
    i.key = Instance.keyOf subject.1 subject.2 i.index := by
  rw [← (mem_recordedOf.mp hi).2]
  rfl

/-- The instances of a version are recorded in the order of their keys. -/
theorem Kept.sorted_recordedOf (h : store.Kept) (subject : String × String) :
    (store.recordedOf subject).Pairwise fun i j => i.key < j.key :=
  h.recorded_sorted.filter _

/-- **A version is listed in the order of its indexes** exactly if no two of them stand the other
way round in their keys. -/
theorem Kept.ordered_iff (h : store.Kept) (subject : String × String) :
    Ordered (store.recordedOf subject) ↔ ∀ i ∈ store.recordedOf subject,
      ∀ j ∈ store.recordedOf subject, i.index < j.index → Precedes i.index j.index := by
  have hsorted := h.sorted_recordedOf subject
  constructor
  · intro hordered i hi j hj hlt
    rw [← Instance.keyOf_lt_iff hlt, ← key_of_mem_recordedOf hi, ← key_of_mem_recordedOf hj]
    obtain ⟨a, ha, rfl⟩ := List.getElem_of_mem hi
    obtain ⟨b, hb, rfl⟩ := List.getElem_of_mem hj
    rcases Nat.lt_trichotomy a b with hab | rfl | hab
    · exact List.pairwise_iff_getElem.mp hsorted a b ha hb hab
    · exact absurd hlt (UInt32.lt_irrefl _)
    · exact absurd hlt (UInt32.lt_asymm (List.pairwise_iff_getElem.mp hordered b a hb ha hab))
  · intro hprecedes
    refine hsorted.imp_of_mem fun {i j} hi hj hkey => ?_
    rw [key_of_mem_recordedOf hi, key_of_mem_recordedOf hj] at hkey
    by_contra hnot
    rcases UInt32.lt_or_eq_of_le (UInt32.not_lt.mp hnot) with hlt | heq
    · have hback : Instance.keyOf subject.1 subject.2 j.index <
          Instance.keyOf subject.1 subject.2 i.index :=
        (Instance.keyOf_lt_iff hlt).mpr (hprecedes j hj i hi hlt)
      exact String.lt_asymm hkey hback
    · rw [heq] at hkey
      exact String.lt_irrefl _ hkey

/-! ## Growing and shrinking -/

private theorem subject_of_mem_additions {s : LocalScheduler} {first added : Nat}
    (hj : j ∈ additions s subject first added) : j.subject = subject := by
  obtain ⟨n, -, rfl⟩ := Roster.mem_additions hj
  rfl

private theorem index_of_mem_additions {s : LocalScheduler} {first added : Nat}
    (hfits : first + added ≤ UInt32.size) (hj : j ∈ additions s subject first added) :
    j.index.toNat < first + added := by
  obtain ⟨n, hn, rfl⟩ := Roster.mem_additions hj
  show (UInt32.ofNat n).toNat < _
  rw [UInt32.toNat_ofNat_of_lt' (Nat.lt_of_lt_of_le hn hfits)]
  exact hn

/-- What is added to a version is found under it. -/
theorem Unmixed.of_additions (h : store.Unmixed subject) {after : Store} {s : LocalScheduler}
    {first added : Nat} (hmem : ∀ j ∈ after.recorded,
      j ∈ store.recorded ∨ j ∈ additions s subject first added) : after.Unmixed subject := by
  intro j hj hshadows
  rcases hmem j hj with hj | hj
  · exact h j hj hshadows
  · exact subject_of_mem_additions hj

/-- An instance under a new index takes the place of none, if nothing else is found under its
version. -/
theorem Kept.mem_recorded_putInstance_new (h : store.Kept) (hunmixed : store.Unmixed i.subject)
    (hnew : ∀ j ∈ store.recordedOf i.subject, j.index ≠ i.index) :
    ∀ j, j ∈ (store.putInstance i).recorded ↔ j ∈ store.recorded ∨ j = i := by
  have hfree : ∀ j ∈ store.recorded, j.key ≠ i.key := by
    intro j hj hkey
    have hshadows : Shadows i.subject j.subject := .of_keyOf_eq i.index j.index hkey.symm
    have hlisted := mem_recordedOf.mpr ⟨hj, hunmixed j hj hshadows⟩
    rw [key_of_mem_recordedOf hlisted] at hkey
    exact hnew j hlisted (Instance.index_eq_of_keyOf_eq hkey)
  intro j
  rw [mem_recorded_putInstance h]
  constructor
  · rintro (rfl | ⟨hj, -⟩)
    · exact Or.inr rfl
    · exact Or.inl hj
  · rintro (hj | rfl)
    · exact Or.inr ⟨hj, hfree j hj⟩
    · exact Or.inl rfl

/-- Fresh instances are added to those that there are, and take the place of none. -/
theorem Kept.mem_recorded_additions (h : store.Kept) (hunmixed : store.Unmixed subject)
    (s : LocalScheduler) {first added : Nat} (hfits : first + added ≤ UInt32.size)
    (hfresh : ∀ i ∈ store.recordedOf subject, i.index.toNat < first) :
    ((additions s subject first added).foldl Store.putInstance store).Kept ∧
      ∀ j, j ∈ ((additions s subject first added).foldl Store.putInstance store).recorded ↔
        j ∈ store.recorded ∨ j ∈ additions s subject first added := by
  induction added with
  | zero =>
    refine ⟨h, fun j => ?_⟩
    simp [additions]
  | succ added ih =>
    obtain ⟨hkept, hmem⟩ := ih (Nat.le_of_succ_le hfits)
    let last := s.fresh subject.1 subject.2 (UInt32.ofNat (first + added))
    have hlast : last.index.toNat = first + added := UInt32.toNat_ofNat_of_lt' hfits
    have hunmixed := hunmixed.of_additions fun j => (hmem j).mp
    have hnew : ∀ j ∈ ((additions s subject first added).foldl Store.putInstance store).recordedOf
        subject, j.index ≠ last.index := by
      intro j hj heq
      have hbelow : j.index.toNat < first + added := by
        obtain ⟨hj, hsubject⟩ := mem_recordedOf.mp hj
        rcases (hmem j).mp hj with hj | hj
        · exact Nat.lt_add_right added (hfresh j (mem_recordedOf.mpr ⟨hj, hsubject⟩))
        · exact index_of_mem_additions (Nat.le_of_succ_le hfits) hj
      rw [heq, hlast] at hbelow
      exact Nat.lt_irrefl _ hbelow
    rw [Roster.additions_succ, List.foldl_append]
    refine ⟨hkept.putInstance last, fun j => ?_⟩
    rw [List.foldl_cons, List.foldl_nil,
      hkept.mem_recorded_putInstance_new (i := last) hunmixed hnew, hmem, List.mem_append,
      List.mem_singleton, or_assoc]

/-- Instances that are removed take with them no others but those under the same keys. -/
theorem Kept.mem_recorded_deleteAll (h : store.Kept) (subject : String × String)
    (gone : List Instance) :
    (gone.foldl (fun store i =>
        (store.deleteInstance subject.1 subject.2 i.index).2) store).Kept ∧
      ∀ j, j ∈ (gone.foldl (fun store i =>
          (store.deleteInstance subject.1 subject.2 i.index).2) store).recorded ↔
        j ∈ store.recorded ∧
          ∀ i ∈ gone, j.key ≠ Instance.keyOf subject.1 subject.2 i.index := by
  induction gone generalizing store with
  | nil => exact ⟨h, fun j => by simp⟩
  | cons i gone ih =>
    obtain ⟨hkept, hmem⟩ := ih (h.deleteInstance _ _ i.index)
    refine ⟨hkept, fun j => ?_⟩
    rw [List.foldl_cons, hmem, mem_recorded_deleteInstance h, List.forall_mem_cons, and_assoc]

/-- The last ones of a version are removed, and nothing else. -/
theorem Kept.mem_recorded_shrink (h : store.Kept) {count : Nat}
    (hcount : count ≤ (store.recordedOf subject).length) :
    (LocalScheduler.shrink store subject.1 subject.2 (store.recordedOf subject)
        ((store.recordedOf subject).length - count)).Kept ∧
      ∀ j, j ∈ (LocalScheduler.shrink store subject.1 subject.2 (store.recordedOf subject)
          ((store.recordedOf subject).length - count)).recorded ↔
        j ∈ store.recorded ∧ j ∉ (store.recordedOf subject).drop count := by
  have hgone : (store.recordedOf subject).reverse.take ((store.recordedOf subject).length - count) =
      ((store.recordedOf subject).drop count).reverse := by
    rw [List.take_reverse, Nat.sub_sub_self hcount]
  obtain ⟨hkept, hmem⟩ := h.mem_recorded_deleteAll subject
    ((store.recordedOf subject).reverse.take ((store.recordedOf subject).length - count))
  refine ⟨hkept, fun j => ?_⟩
  rw [LocalScheduler.shrink, hmem, hgone]
  refine and_congr_right fun hj => ⟨fun hfree hdrop => ?_, fun hdrop i hi hkey => ?_⟩
  · exact hfree j (List.mem_reverse.mpr hdrop)
      (key_of_mem_recordedOf (List.mem_of_mem_drop hdrop))
  · have hi := List.mem_reverse.mp hi
    have hlisted := List.mem_of_mem_drop hi
    rw [← key_of_mem_recordedOf hlisted] at hkey
    rw [h.eq_of_key hj (mem_recordedOf.mp hlisted).1 hkey] at hdrop
    exact hdrop hi

/-- Fresh instances come after all of an ordered list. -/
theorem ordered_additions {roster : List Instance} (hordered : Ordered roster) (s : LocalScheduler)
    {added : Nat} (hfits : free roster + added ≤ UInt32.size) :
    Ordered (roster ++ additions s subject (free roster) added) := by
  have hexact {n : Nat} (hn : n < free roster + added) : (UInt32.ofNat n).toNat = n :=
    UInt32.toNat_ofNat_of_lt' (Nat.lt_of_lt_of_le hn hfits)
  refine List.pairwise_append.mpr ⟨hordered, ?_, fun i hi j hj => ?_⟩
  · refine List.pairwise_map.mpr ((List.pairwise_lt_range' 1).imp_of_mem
      fun {n m} hn hm hlt => ?_)
    show UInt32.ofNat n < UInt32.ofNat m
    rw [UInt32.lt_iff_toNat_lt, hexact (List.mem_range'_1.mp hn).2,
      hexact (List.mem_range'_1.mp hm).2]
    exact hlt
  · obtain ⟨n, hn, rfl⟩ := List.mem_map.mp hj
    have hn := List.mem_range'_1.mp hn
    show i.index < UInt32.ofNat n
    rw [UInt32.lt_iff_toNat_lt, hexact hn.2]
    exact Nat.lt_of_lt_of_le (Roster.lt_free hordered hi) hn.1

/-- A version that is listed in the order of its indexes does not have all of them. -/
theorem Kept.length_lt_of_ordered (h : store.Kept) (hordered : Ordered (store.recordedOf subject)) :
    (store.recordedOf subject).length < UInt32.size := by
  let indexes := (store.recordedOf subject).map fun i => i.index.toFin
  have hnodup : indexes.Nodup := by
    refine List.pairwise_map.mpr (hordered.imp fun {i j} hlt heq => ?_)
    exact UInt32.ne_of_lt hlt (UInt32.toFin_inj.mp heq)
  -- These two stand the other way round in their keys, so one of them is missing.
  have hmissing : ∃ index : UInt32, index.toFin ∉ indexes := by
    by_contra hall
    push Not at hall
    obtain ⟨i, hi, hindex⟩ := List.mem_map.mp (hall 999999)
    obtain ⟨j, hj, hother⟩ := List.mem_map.mp (hall 1000000)
    have hprecedes := (h.ordered_iff subject).mp hordered i hi j hj
    rw [UInt32.toFin_inj.mp hindex, UInt32.toFin_inj.mp hother] at hprecedes
    exact absurd (hprecedes (by decide)) (by decide +kernel)
  obtain ⟨index, hindex⟩ := hmissing
  have hlength := (List.nodup_cons.mpr ⟨hindex, hnodup⟩).length_le_card
  rw [Fintype.card_fin, List.length_cons, List.length_map] at hlength
  exact hlength

/-- A version has been brought to a number of instances. -/
structure Converged (s : LocalScheduler) (store : Store) (subject : String × String)
    (count : Nat) (after : Store) : Prop where
  /-- The table still holds instances under their own keys. -/
  kept : after.Kept
  /-- The version is still listed without others. -/
  unmixed : after.Unmixed subject
  /-- It has so many instances. -/
  length : (after.recordedOf subject).length = count
  /-- Those that are removed have higher indexes than those that stay. -/
  highest : ∀ i ∈ (store.recordedOf subject).take count,
    ∀ j ∈ (store.recordedOf subject).drop count, i.index < j.index
  /-- All others stay, of whatever version they are, and fresh ones are added behind them. -/
  recorded : ∀ j, j ∈ after.recorded ↔
    j ∈ store.recorded ∧ j ∉ (store.recordedOf subject).drop count ∨
      j ∈ additions s subject (free (store.recordedOf subject))
        (count - (store.recordedOf subject).length)

private theorem Kept.nodup_recordedOf (h : store.Kept) (subject : String × String) :
    (store.recordedOf subject).Nodup := by
  refine (h.sorted_recordedOf subject).imp fun hlt heq => ?_
  rw [heq] at hlt
  exact String.lt_irrefl _ hlt

/-- What is recorded tells the rest. -/
theorem converged_of_recorded (hunmixed : store.Unmixed subject)
    (hordered : Ordered (store.recordedOf subject)) {s : LocalScheduler} {count : Nat}
    (hfits : free (store.recordedOf subject) + (count - (store.recordedOf subject).length) ≤
      UInt32.size) {after : Store} (hkept : after.Kept)
    (hrecorded : ∀ j, j ∈ after.recorded ↔
      j ∈ store.recorded ∧ j ∉ (store.recordedOf subject).drop count ∨
        j ∈ additions s subject (free (store.recordedOf subject))
          (count - (store.recordedOf subject).length)) :
    Converged s store subject count after := by
  let left := (store.recordedOf subject).take count ++
    additions s subject (free (store.recordedOf subject))
      (count - (store.recordedOf subject).length)
  have hleft : Ordered left :=
    (ordered_additions hordered s hfits).sublist ((List.take_sublist _ _).append_right _)
  have hmem : ∀ j, j ∈ after.recordedOf subject ↔ j ∈ left := by
    intro j
    rw [mem_recordedOf, hrecorded, List.mem_append, hordered.mem_take_iff, mem_recordedOf]
    constructor
    · rintro ⟨⟨hj, hstays⟩ | hj, hsubject⟩
      · exact Or.inl ⟨⟨hj, hsubject⟩, hstays⟩
      · exact Or.inr hj
    · rintro (⟨⟨hj, hsubject⟩, hstays⟩ | hj)
      · exact ⟨Or.inl ⟨hj, hstays⟩, hsubject⟩
      · exact ⟨Or.inr hj, subject_of_mem_additions hj⟩
  have hperm := (List.perm_ext_iff_of_nodup (hkept.nodup_recordedOf subject) hleft.nodup).mpr hmem
  have hlength : left.length = count := by
    rw [List.length_append, List.length_take, additions, List.length_map, List.length_range']
    omega
  exact {
    kept := hkept
    unmixed := hunmixed.of_additions fun j hj => ((hrecorded j).mp hj).imp_left And.left
    length := hperm.length_eq.trans hlength
    highest := hordered.take_lt_drop count
    recorded := hrecorded }

private theorem free_le_size (roster : List Instance) : free roster ≤ UInt32.size := by
  unfold free
  cases roster.getLast? with
  | none => exact Nat.zero_le _
  | some last => exact last.index.toNat_lt_size

/-- The local scheduler counts what it has listed, and adds or removes the difference. -/
theorem setCount_eq (s : LocalScheduler) {roster : List Instance} (count : UInt32)
    (hlist : store.instanceList subject.1 subject.2 = .ok roster)
    (hlength : roster.length < UInt32.size) :
    s.setCount store subject.1 subject.2 count =
      .ok (if roster.length < count.toNat then
        s.grow store subject.1 subject.2 roster (count - UInt32.ofNat roster.length)
      else
        LocalScheduler.shrink store subject.1 subject.2 roster
          (roster.length - count.toNat)) := by
  have hcurrent : (UInt32.ofNat roster.length).toNat = roster.length :=
    UInt32.toNat_ofNat_of_lt' hlength
  have hset : s.setCount store subject.1 subject.2 count =
      if UInt32.ofNat roster.length < count then
        .ok (s.grow store subject.1 subject.2 roster
          (count - UInt32.ofNat roster.length))
      else
        .ok (LocalScheduler.shrink store subject.1 subject.2 roster
          (UInt32.ofNat roster.length - count).toNat) := by
    rw [LocalScheduler.setCount, hlist]
    rfl
  rcases Nat.lt_or_ge roster.length count.toNat with hlt | hge
  · have hless : UInt32.ofNat roster.length < count := by
      rw [UInt32.lt_iff_toNat_lt, hcurrent]
      exact hlt
    rw [hset, if_pos hless, if_pos hlt]
  · have hmore : count ≤ UInt32.ofNat roster.length := by
      rw [UInt32.le_iff_toNat_le, hcurrent]
      exact hge
    rw [hset, if_neg (UInt32.not_lt.mpr hmore), if_neg (Nat.not_lt.mpr hge),
      UInt32.toNat_sub_of_le _ _ hmore, hcurrent]

/-- A version that is listed in the order of its indexes is brought to any number of instances for
which there are indexes. -/
theorem Kept.setCount_converged (h : store.Kept) (hunmixed : store.Unmixed subject)
    (hordered : Ordered (store.recordedOf subject)) (s : LocalScheduler) {count : UInt32}
    (hfits : (store.recordedOf subject).length < count.toNat →
      free (store.recordedOf subject) + (count.toNat - (store.recordedOf subject).length) <
        UInt32.size) :
    ∃ after, s.setCount store subject.1 subject.2 count = .ok after ∧
      Converged s store subject count.toNat after := by
  have hset := setCount_eq s count (h.instanceList_of_unmixed hunmixed)
    (h.length_lt_of_ordered hordered)
  refine ⟨_, hset, ?_⟩
  split
  · next hgrow =>
    have hroom := hfits hgrow
    have hadded := Roster.toNat_sub_ofNat (Nat.le_of_lt hgrow)
    obtain ⟨hkept, hmem⟩ := h.mem_recorded_additions hunmixed s (Nat.le_of_lt hroom)
      fun i => Roster.lt_free hordered
    rw [← hadded] at hroom hkept hmem
    rw [← grow_eq s store subject hroom] at hkept hmem
    rw [hadded] at hroom hmem
    refine converged_of_recorded hunmixed hordered (Nat.le_of_lt hroom) hkept fun j => ?_
    rw [hmem, List.drop_eq_nil_of_le (Nat.le_of_lt hgrow)]
    simp
  · next hshrink =>
    have hle := Nat.not_lt.mp hshrink
    have hnone := Nat.sub_eq_zero_of_le hle
    obtain ⟨hkept, hmem⟩ := h.mem_recorded_shrink hle
    refine converged_of_recorded hunmixed hordered ?_ hkept fun j => ?_
    · rw [hnone]
      exact free_le_size _
    · rw [hmem, hnone]
      simp [additions]

/-- **The order of a version's indexes.** It is the order of the keys for indexes that precede one
another, such as all of six digits. A version that has only such ones is listed in their order, and
is brought to any number of instances: those with the highest indexes are removed, or fresh ones are
added. -/
theorem Kept.index_order (h : store.Kept) (hunmixed : store.Unmixed subject) (s : LocalScheduler) :
    let roster := store.recordedOf subject
    (∀ index other, index < other →
      (keyBytes (Instance.keyOf subject.1 subject.2 index) <
          keyBytes (Instance.keyOf subject.1 subject.2 other) ↔ Precedes index other)) ∧
    store.instanceList subject.1 subject.2 = .ok roster ∧
    (Ordered roster ↔ ∀ i ∈ roster, ∀ j ∈ roster, i.index < j.index →
      Precedes i.index j.index) ∧
    ((∀ i ∈ roster, i.index.toNat < indexLimit) → Ordered roster) ∧
    (Ordered roster → ∀ count : UInt32,
      (roster.length < count.toNat →
        free roster + (count.toNat - roster.length) < UInt32.size) →
      ∃ after, s.setCount store subject.1 subject.2 count = .ok after ∧
        Converged s store subject count.toNat after) := by
  refine ⟨fun index other hlt => ?_, h.instanceList_of_unmixed hunmixed, h.ordered_iff subject,
    fun hbelow => ?_, fun hordered count hfits => h.setCount_converged hunmixed hordered s hfits⟩
  · rw [keyBytes_lt_iff]
    exact Instance.keyOf_lt_iff hlt
  · exact (h.ordered_iff subject).mpr fun i hi j hj => Instance.precedes_of_lt (hbelow j hj)

/-- From the last index of six digits on a version still grows, and keeps what it has. -/
theorem index_order_edge :
    let s : LocalScheduler := ⟨true, 0⟩
    let store := (empty.putInstance (s.fresh "shop" "1" 999999)).putInstance
      (s.fresh "shop" "1" 999998)
    store.Kept ∧ store.Unmixed ("shop", "1") ∧
      store.instanceList "shop" "1" =
        .ok [s.fresh "shop" "1" 999998, s.fresh "shop" "1" 999999] ∧
      ∃ after, s.setCount store "shop" "1" 3 = .ok after ∧
        Converged s store ("shop", "1") 3 after := by
  intro s store
  have hkept : store.Kept := ((kept_empty _).putInstance _).putInstance _
  have hlist : store.recordedOf ("shop", "1") =
      [s.fresh "shop" "1" 999998, s.fresh "shop" "1" 999999] := by decide +kernel
  have hunmixed : store.Unmixed ("shop", "1") := by
    intro i hi _
    rcases (mem_recorded_putInstance ((kept_empty _).putInstance _)).mp hi with rfl | ⟨hi, -⟩
    · rfl
    · rcases (mem_recorded_putInstance (kept_empty _)).mp hi with rfl | ⟨hi, -⟩
      · rfl
      · cases hi
  obtain ⟨-, hread, -, hordered, hset⟩ := hkept.index_order hunmixed s
  rw [hlist] at hread hordered hset
  exact ⟨hkept, hunmixed, hread, hset (hordered (by decide)) 3 (by decide)⟩

/-- With the first index of seven digits, a version is no longer listed in the order of its indexes.
The instance that is removed does not have the highest index, and the fresh one is written over
another one, so that the version does not grow. -/
theorem not_index_order :
    let s : LocalScheduler := ⟨true, 0⟩
    let store := (empty.putInstance (s.fresh "shop" "1" 999999)).putInstance
      (s.fresh "shop" "1" 1000000)
    keyBytes (Instance.keyOf "shop" "1" 1000000) < keyBytes (Instance.keyOf "shop" "1" 999999) ∧
      store.instanceList "shop" "1" =
        .ok [s.fresh "shop" "1" 1000000, s.fresh "shop" "1" 999999] ∧
      (s.setCount store "shop" "1" 1).bind (·.instanceList "shop" "1") =
        .ok [s.fresh "shop" "1" 1000000] ∧
      (s.setCount store "shop" "1" 3).bind (·.instanceList "shop" "1") =
        .ok [s.fresh "shop" "1" 1000000, s.fresh "shop" "1" 999999] := by
  decide +kernel

end Store

end Rollout
