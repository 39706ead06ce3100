import Mathlib.Algebra.Group.Nat.Defs
import Mathlib.Data.List.Sort
import Rollout.Proofs.InstanceTable
import Rollout.Proofs.TableMap

/-!
# Instances in the order of their indexes

As long as the names of applications and versions have no colons and the indexes are below a
million, a key tells the version and the index of an instance, and the keys of a version stand in
the order of the indexes. The table is then a list of instances for each version, ordered by index,
and what is written and removed is written and removed in these lists.
-/

namespace Rollout

/-! ## Padded numerals -/

namespace Text

/-- The number that is reached from another one by appending digits. -/
def appendDigits (n : Nat) (cs : List Char) : Nat :=
  cs.foldl (fun n c => 10 * n + digitValue c) n

/-- A decimal digit is at most nine. -/
theorem digitValue_le {c : Char} (h : isDigit c = true) : digitValue c ≤ 9 := by
  simp only [isDigit, Bool.and_eq_true, decide_eq_true_eq] at h
  simp only [digitValue]
  omega

/-- Digits come in the order of their values. -/
theorem digitValue_lt {c c' : Char} (h : isDigit c = true) (hlt : c < c') :
    digitValue c < digitValue c' := by
  have hlt : c.toNat < c'.toNat := hlt
  simp only [isDigit, Bool.and_eq_true, decide_eq_true_eq] at h
  simp only [digitValue]
  omega

/-- A lower number stays lower when as many digits are appended to both. -/
theorem appendDigits_lt {n n' : Nat} (h : n < n') {cs cs' : List Char}
    (hlength : cs.length = cs'.length) (hdigits : ∀ c ∈ cs, isDigit c = true) :
    appendDigits n cs < appendDigits n' cs' := by
  induction cs generalizing n n' cs' with
  | nil =>
    obtain rfl := List.length_eq_zero_iff.mp hlength.symm
    exact h
  | cons c cs ih =>
    obtain ⟨c', cs', rfl⟩ := List.exists_cons_of_length_eq_add_one hlength.symm
    obtain ⟨hc, hcs⟩ := List.forall_mem_cons.mp hdigits
    have hle := digitValue_le hc
    have hnext : 10 * n + digitValue c < 10 * n' + digitValue c' := by omega
    exact ih hnext (Nat.succ.inj hlength) hcs

/-- Numerals of one length stand in the order of the numbers. -/
theorem appendDigits_lt_of_lt (n : Nat) {cs cs' : List Char} (h : cs < cs')
    (hlength : cs.length = cs'.length) (hdigits : ∀ c ∈ cs, isDigit c = true) :
    appendDigits n cs < appendDigits n cs' := by
  induction cs generalizing n cs' with
  | nil =>
    obtain rfl := List.length_eq_zero_iff.mp hlength.symm
    exact absurd h (List.lt_irrefl _)
  | cons c cs ih =>
    obtain ⟨c', cs', rfl⟩ := List.exists_cons_of_length_eq_add_one hlength.symm
    obtain ⟨hc, hcs⟩ := List.forall_mem_cons.mp hdigits
    rcases List.cons_lt_cons_iff.mp h with hlt | ⟨rfl, hlt⟩
    · have hvalue := digitValue_lt hc hlt
      have hnext : 10 * n + digitValue c < 10 * n + digitValue c' := by omega
      exact appendDigits_lt hnext (Nat.succ.inj hlength) hcs
    · exact ih _ hlt (Nat.succ.inj hlength) hcs

private theorem appendDigits_zeros (count : Nat) (cs : List Char) :
    appendDigits 0 (List.replicate count '0' ++ cs) = appendDigits 0 cs := by
  induction count with
  | zero => rfl
  | succ count ih => exact ih

/-- Zeros on the left do not change what a numeral denotes. -/
theorem ofDigits_padded (width n : Nat) : ofDigits (padded width n).toList = n := by
  rw [padded, String.toList_ofList]
  exact (appendDigits_zeros _ _).trans (ofDigits_digits n)

/-- Numbers with the same padded numeral are equal. -/
theorem padded_injective (width : Nat) : Function.Injective (padded width) := by
  intro n m h
  rw [← ofDigits_padded width n, h, ofDigits_padded]

/-- A number below a power of ten has no more digits than that. -/
theorem length_digits_le {width n : Nat} (h : n < 10 ^ (width + 1)) :
    (digits n).length ≤ width + 1 := by
  induction width generalizing n with
  | zero =>
    rw [digits, if_pos (by simpa using h)]
    exact Nat.le_refl 1
  | succ width ih =>
    rw [digits]
    split
    · exact Nat.le_add_left 1 _
    · have hshorter : n / 10 < 10 ^ (width + 1) := by
        rw [Nat.div_lt_iff_lt_mul (by decide), ← Nat.pow_succ]
        exact h
      have hlength := ih hshorter
      rw [List.length_append, List.length_singleton]
      omega

private theorem length_padded {width n : Nat} (h : n < 10 ^ (width + 1)) :
    (padded (width + 1) n).toList.length = width + 1 := by
  have hdigits := length_digits_le h
  rw [padded, String.toList_ofList, List.length_append, List.length_replicate]
  omega

/-- Padded numerals of one length come in the order of their numbers. -/
theorem lt_of_padded_lt {width n m : Nat} (hn : n < 10 ^ (width + 1)) (hm : m < 10 ^ (width + 1))
    (h : (padded (width + 1) n).toList < (padded (width + 1) m).toList) : n < m := by
  have hlength := (length_padded hn).trans (length_padded hm).symm
  have hlt := appendDigits_lt_of_lt 0 h hlength fun c hc => isDigit_of_mem_padded hc
  calc n = ofDigits (padded (width + 1) n).toList := (ofDigits_padded _ _).symm
    _ < ofDigits (padded (width + 1) m).toList := hlt
    _ = m := ofDigits_padded _ _

end Text

/-! ## Keys -/

namespace Instance

/-- Neither the application nor the version has a colon in its name. -/
def Plain (subject : String × String) : Prop :=
  ':' ∉ subject.1.toList ∧ ':' ∉ subject.2.toList

/-- Whether a version is plain is seen from its two names. -/
instance (subject : String × String) : Decidable (Plain subject) :=
  inferInstanceAs (Decidable (_ ∧ _))

/-- Indexes from here on have more digits than keys are padded to. -/
def indexLimit : Nat :=
  1000000

/-- Plain versions shadow only themselves. -/
theorem Shadows.eq_of_plains {first second : String × String} (h : Shadows first second)
    (hfirst : Plain first) (hsecond : Plain second) : first = second :=
  h.eq_of_plain hfirst.1 hsecond.1 hsecond.2

/-- A key tells the version and the index. -/
theorem keyOf_inj {first second : String × String} {index other : UInt32} (hfirst : Plain first)
    (hsecond : Plain second) :
    keyOf first.1 first.2 index = keyOf second.1 second.2 other ↔
      first = second ∧ index = other := by
  constructor
  · intro h
    obtain rfl := (Shadows.of_keyOf_eq index other h).eq_of_plains hfirst hsecond
    have hdigits := congrArg String.toList h
    rw [toList_keyOf, toList_keyOf, List.append_cancel_left_eq, String.toList_inj] at hdigits
    exact ⟨rfl, UInt32.toNat_inj.mp (Text.padded_injective 6 hdigits)⟩
  · rintro ⟨rfl, rfl⟩
    rfl

private theorem key_eq (i : Instance) : i.key = keyOf i.subject.1 i.subject.2 i.index :=
  rfl

/-- Texts with the same beginning are in the order of what follows it. -/
theorem lt_of_append_lt {start cs cs' : List Char} (h : start ++ cs < start ++ cs') :
    cs < cs' := by
  induction start with
  | nil => exact h
  | cons c start ih =>
    rcases List.cons_lt_cons_iff.mp h with hlt | ⟨-, hlt⟩
    · exact absurd hlt (Char.lt_irrefl c)
    · exact ih hlt

/-- Keys of one version stand in the order of the indexes. -/
theorem lt_of_keyOf_lt {subject : String × String} {index other : UInt32}
    (hindex : index.toNat < indexLimit) (hother : other.toNat < indexLimit)
    (h : keyOf subject.1 subject.2 index < keyOf subject.1 subject.2 other) : index < other := by
  rw [String.lt_iff, toList_keyOf, toList_keyOf] at h
  exact UInt32.lt_iff_toNat_lt.mpr (Text.lt_of_padded_lt hindex hother (lt_of_append_lt h))

end Instance

/-! ## Ordered lists -/

namespace Roster

variable {roster roster' : List Instance} {i j : Instance}

/-- Instances of one version, ordered by index. -/
def Ordered (roster : List Instance) : Prop :=
  roster.Pairwise fun i j => i.index < j.index

/-- No instance stands twice in an ordered list. -/
theorem Ordered.nodup (h : Ordered roster) : roster.Nodup := by
  apply h.imp
  rintro i _ hlt rfl
  exact UInt32.lt_irrefl _ hlt

/-- An ordered list is known by its members. -/
theorem Ordered.eq (h : Ordered roster) (h' : Ordered roster')
    (hmem : ∀ i, i ∈ roster ↔ i ∈ roster') : roster = roster' := by
  have : Std.Asymm fun i j : Instance => i.index < j.index := ⟨fun _ _ => UInt32.lt_asymm⟩
  exact List.Pairwise.eq_of_mem_iff h h' hmem

/-- Of an ordered list, an index belongs to one member. -/
theorem Ordered.eq_of_index (h : Ordered roster) (hi : i ∈ roster)
    (hj : j ∈ roster) (hindex : i.index = j.index) : i = j := by
  have hapart : (roster.map Instance.index).Nodup :=
    List.pairwise_map.mpr (h.imp fun hlt => UInt32.ne_of_lt hlt)
  exact List.inj_on_of_nodup_map hapart hi hj hindex

end Roster

/-! ## Tables of plain instances -/

namespace Store

open Instance (Shadows Plain indexLimit)
open Roster (Ordered)

/-- The table holds instances under their own keys, and the keys tell what they are. -/
structure Rostered (store : Store) : Prop where
  /-- Instances stand under their own keys. -/
  kept : store.Kept
  /-- Their versions have no colons in their names. -/
  plain : ∀ i ∈ store.recorded, Plain i.subject
  /-- Their indexes are not longer than keys are padded to. -/
  below : ∀ i ∈ store.recorded, i.index.toNat < indexLimit

variable {store : Store} {subject other : String × String} {i j : Instance}

/-- An instance is recorded exactly if its text stands under its key. -/
theorem Kept.mem_recorded (h : store.Kept) :
    i ∈ store.recorded ↔ store.instances.get? i.key = some i.toText := by
  rw [← Table.mem_entries_iff, recorded, Table.values, List.mem_filterMap]
  constructor
  · rintro ⟨text, htext, hi⟩
    obtain ⟨entry, hentry, rfl⟩ := List.mem_map.mp htext
    obtain ⟨j, rfl⟩ := h entry hentry
    rw [Instance.ofText?_toText] at hi
    obtain rfl := Option.some.inj hi
    exact hentry
  · intro hentry
    exact ⟨i.toText, List.mem_map.mpr ⟨_, hentry, rfl⟩, Instance.ofText?_toText i⟩

/-- The instances of a version are those of the table that belong to it. -/
theorem mem_recordedOf :
    i ∈ store.recordedOf subject ↔ i ∈ store.recorded ∧ i.subject = subject := by
  rw [recordedOf, List.mem_filter, decide_eq_true_eq]

/-- What is found under a version are its instances. -/
theorem Rostered.instanceList_eq (h : store.Rostered) (hplain : Plain subject) :
    store.instanceList subject.1 subject.2 = .ok (store.recordedOf subject) := by
  rw [h.kept.instanceList_eq, recordedOf]
  congr 1
  refine List.filter_congr fun i hi => ?_
  rw [decide_eq_decide]
  constructor
  · intro hshadows
    exact (hshadows.eq_of_plains hplain (h.plain i hi)).symm
  · rintro rfl
    exact .refl _

/-- Instances are recorded in the order of their keys. -/
theorem Kept.recorded_sorted (h : store.Kept) :
    store.recorded.Pairwise fun i j => i.key < j.key := by
  rw [recorded, Table.values, List.filterMap_map, List.pairwise_filterMap]
  refine store.instances.sorted.imp_of_mem fun hentry hentry' hlt i hi j hj => ?_
  obtain ⟨i', rfl⟩ := h _ hentry
  obtain ⟨j', rfl⟩ := h _ hentry'
  rw [Function.comp_apply, Instance.ofText?_toText] at hi hj
  obtain rfl := Option.some.inj hi
  obtain rfl := Option.some.inj hj
  exact hlt

/-- The instances of a version are recorded in the order of their indexes. -/
theorem Rostered.ordered (h : store.Rostered) (subject : String × String) :
    Ordered (store.recordedOf subject) := by
  refine (h.kept.recorded_sorted.filter _).imp_of_mem fun {i j} hi hj hlt => ?_
  obtain ⟨hirecorded, hisubject⟩ := mem_recordedOf.mp hi
  obtain ⟨hjrecorded, hjsubject⟩ := mem_recordedOf.mp hj
  have hkey : Instance.keyOf i.subject.1 i.subject.2 i.index <
      Instance.keyOf j.subject.1 j.subject.2 j.index := hlt
  rw [hisubject, hjsubject] at hkey
  exact Instance.lt_of_keyOf_lt (h.below i hirecorded) (h.below j hjrecorded) hkey

/-! ## Writes in the order of the indexes -/

/-- Among plain versions a key belongs to one index of one version. -/
theorem Rostered.key_eq_iff (h : store.Rostered) (hj : j ∈ store.recorded)
    (hplain : Plain i.subject) : j.key = i.key ↔ j.subject = i.subject ∧ j.index = i.index := by
  rw [j.key_eq, i.key_eq]
  exact Instance.keyOf_inj (h.plain j hj) hplain

/-- After an instance is put into the table it is there, and so is all that had another key. -/
theorem mem_recorded_putInstance (h : store.Kept) :
    j ∈ (store.putInstance i).recorded ↔ j = i ∨ j ∈ store.recorded ∧ j.key ≠ i.key := by
  rw [(h.putInstance i).mem_recorded, h.mem_recorded]
  have hget : (store.putInstance i).instances.get? j.key =
      if j.key = i.key then some i.toText else store.instances.get? j.key :=
    Table.get?_insert store.instances i.key j.key i.toText
  rw [hget]
  by_cases hkey : j.key = i.key
  · rw [if_pos hkey, Option.some_inj]
    constructor
    · intro htext
      have hread := congrArg Instance.ofText? htext
      rw [Instance.ofText?_toText, Instance.ofText?_toText] at hread
      exact Or.inl (Option.some.inj hread).symm
    · rintro (rfl | ⟨-, hne⟩)
      · rfl
      · exact absurd hkey hne
  · rw [if_neg hkey]
    constructor
    · exact fun hj => Or.inr ⟨hj, hkey⟩
    · rintro (rfl | ⟨hj, -⟩)
      · exact absurd rfl hkey
      · exact hj

/-- After an instance is deleted all that had another key is still there. -/
theorem mem_recorded_deleteInstance (h : store.Kept) {index : UInt32} :
    j ∈ (store.deleteInstance subject.1 subject.2 index).2.recorded ↔
      j ∈ store.recorded ∧ j.key ≠ Instance.keyOf subject.1 subject.2 index := by
  rw [(h.deleteInstance _ _ index).mem_recorded, h.mem_recorded]
  have hget : (store.deleteInstance subject.1 subject.2 index).2.instances.get? j.key =
      if j.key = Instance.keyOf subject.1 subject.2 index then none
      else store.instances.get? j.key :=
    Table.get?_erase store.instances _ j.key
  rw [hget]
  by_cases hkey : j.key = Instance.keyOf subject.1 subject.2 index
  · simp [hkey]
  · simp [hkey]

/-- Putting a plain instance into a plain table leaves it so. -/
theorem Rostered.putInstance (h : store.Rostered) (hplain : Plain i.subject)
    (hbelow : i.index.toNat < indexLimit) : (store.putInstance i).Rostered where
  kept := h.kept.putInstance i
  plain j hj := by
    rcases (mem_recorded_putInstance h.kept).mp hj with rfl | ⟨hj, -⟩
    · exact hplain
    · exact h.plain j hj
  below j hj := by
    rcases (mem_recorded_putInstance h.kept).mp hj with rfl | ⟨hj, -⟩
    · exact hbelow
    · exact h.below j hj

/-- Deleting an instance leaves a plain table. -/
theorem Rostered.deleteInstance (h : store.Rostered) (subject : String × String) (index : UInt32) :
    (store.deleteInstance subject.1 subject.2 index).2.Rostered where
  kept := h.kept.deleteInstance _ _ index
  plain j hj := h.plain j ((mem_recorded_deleteInstance h.kept).mp hj).1
  below j hj := h.below j ((mem_recorded_deleteInstance h.kept).mp hj).1

/-- Writing an instance leaves the other versions. -/
theorem Rostered.recordedOf_putInstance_of_ne (h : store.Rostered) (hplain : Plain i.subject)
    (hbelow : i.index.toNat < indexLimit) (hother : other ≠ i.subject) :
    (store.putInstance i).recordedOf other = store.recordedOf other := by
  refine ((h.putInstance hplain hbelow).ordered other).eq (h.ordered other) fun j => ?_
  rw [mem_recordedOf, mem_recordedOf, mem_recorded_putInstance h.kept]
  constructor
  · rintro ⟨rfl | ⟨hj, -⟩, hsubject⟩
    · exact absurd hsubject.symm hother
    · exact ⟨hj, hsubject⟩
  · rintro ⟨hj, hsubject⟩
    refine ⟨Or.inr ⟨hj, fun hkey => ?_⟩, hsubject⟩
    exact hother (hsubject.symm.trans ((h.key_eq_iff hj hplain).mp hkey).1)

/-- Writing an instance with a higher index appends it. -/
theorem Rostered.recordedOf_putInstance_last (h : store.Rostered) (hplain : Plain i.subject)
    (hbelow : i.index.toNat < indexLimit)
    (hlast : ∀ j ∈ store.recordedOf i.subject, j.index < i.index) :
    (store.putInstance i).recordedOf i.subject = store.recordedOf i.subject ++ [i] := by
  have hordered : Ordered (store.recordedOf i.subject ++ [i]) := by
    refine List.pairwise_append.mpr ⟨h.ordered _, List.pairwise_singleton _ _, ?_⟩
    intro j hj i' hi'
    rw [List.mem_singleton.mp hi']
    exact hlast j hj
  refine ((h.putInstance hplain hbelow).ordered _).eq hordered fun j => ?_
  rw [List.mem_append, List.mem_singleton, mem_recordedOf, mem_recorded_putInstance h.kept]
  constructor
  · rintro ⟨rfl | ⟨hj, -⟩, hsubject⟩
    · exact Or.inr rfl
    · exact Or.inl (mem_recordedOf.mpr ⟨hj, hsubject⟩)
  · rintro (hj | rfl)
    · have hlt := hlast j hj
      obtain ⟨hj, hsubject⟩ := mem_recordedOf.mp hj
      refine ⟨Or.inr ⟨hj, fun hkey => ?_⟩, hsubject⟩
      rw [((h.key_eq_iff hj hplain).mp hkey).2] at hlt
      exact UInt32.lt_irrefl _ hlt
    · exact ⟨Or.inl rfl, rfl⟩

/-- Writing an instance with an index that is there replaces the one that has it. -/
theorem Rostered.recordedOf_putInstance_of_mem (h : store.Rostered)
    (hj : j ∈ store.recordedOf i.subject) (hindex : j.index = i.index) :
    (store.putInstance i).recordedOf i.subject =
      (store.recordedOf i.subject).map fun j => if j.index = i.index then i else j := by
  obtain ⟨hrecorded, hsubject⟩ := mem_recordedOf.mp hj
  have hplain : Plain i.subject := hsubject ▸ h.plain j hrecorded
  have hbelow : i.index.toNat < indexLimit := hindex ▸ h.below j hrecorded
  have hkeeps (k : Instance) : (if k.index = i.index then i else k).index = k.index := by
    split
    · next heq => exact heq.symm
    · rfl
  have hordered : Ordered
      ((store.recordedOf i.subject).map fun j => if j.index = i.index then i else j) := by
    refine List.pairwise_map.mpr ((h.ordered _).imp fun {k k'} hlt => ?_)
    rw [hkeeps, hkeeps]
    exact hlt
  refine ((h.putInstance hplain hbelow).ordered _).eq hordered fun k => ?_
  rw [mem_recordedOf, mem_recorded_putInstance h.kept, List.mem_map]
  constructor
  · rintro ⟨rfl | ⟨hk, hkey⟩, hk'⟩
    · exact ⟨j, hj, if_pos hindex⟩
    · refine ⟨k, mem_recordedOf.mpr ⟨hk, hk'⟩, if_neg fun heq => hkey ?_⟩
      exact (h.key_eq_iff hk hplain).mpr ⟨hk', heq⟩
  · rintro ⟨k', hk', rfl⟩
    obtain ⟨hrecorded', hsubject'⟩ := mem_recordedOf.mp hk'
    split
    · exact ⟨Or.inl rfl, rfl⟩
    · next hne =>
      refine ⟨Or.inr ⟨hrecorded', fun hkey => hne ?_⟩, hsubject'⟩
      exact ((h.key_eq_iff hrecorded' hplain).mp hkey).2

/-- Removing an instance leaves the other versions. -/
theorem Rostered.recordedOf_deleteInstance_of_ne (h : store.Rostered) (hplain : Plain subject)
    (index : UInt32) (hother : other ≠ subject) :
    (store.deleteInstance subject.1 subject.2 index).2.recordedOf other =
      store.recordedOf other := by
  refine ((h.deleteInstance subject index).ordered other).eq (h.ordered other) fun j => ?_
  rw [mem_recordedOf, mem_recordedOf, mem_recorded_deleteInstance h.kept]
  constructor
  · rintro ⟨⟨hj, -⟩, hsubject⟩
    exact ⟨hj, hsubject⟩
  · rintro ⟨hj, hsubject⟩
    refine ⟨⟨hj, fun hkey => ?_⟩, hsubject⟩
    rw [j.key_eq, Instance.keyOf_inj (h.plain j hj) hplain] at hkey
    exact hother (hsubject.symm.trans hkey.1)

/-- Removing an instance drops the one with its index. -/
theorem Rostered.recordedOf_deleteInstance (h : store.Rostered) (hplain : Plain subject)
    (index : UInt32) :
    (store.deleteInstance subject.1 subject.2 index).2.recordedOf subject =
      (store.recordedOf subject).filter (·.index ≠ index) := by
  refine ((h.deleteInstance subject index).ordered subject).eq ((h.ordered subject).filter _)
    fun j => ?_
  rw [List.mem_filter, mem_recordedOf, mem_recordedOf, mem_recorded_deleteInstance h.kept,
    decide_eq_true_eq, and_right_comm]
  refine and_congr_right fun hj => ?_
  rw [ne_eq, j.key_eq, Instance.keyOf_inj (h.plain j hj.1) hplain, not_and]
  exact ⟨fun hne => hne hj.2, fun hne _ => hne⟩

/-! ## What writes leave -/

/-- A store becomes another one, in which one version has another list of instances. -/
structure Becomes (store : Store) (subject : String × String) (roster : List Instance)
    (after : Store) : Prop where
  /-- The keys still tell what the instances are. -/
  rostered : after.Rostered
  /-- The version has the new list, and every other one the list that it had. -/
  rosters : after.recordedOf = Function.update store.recordedOf subject roster

variable {after next : Store} {roster roster' : List Instance}

/-- The version has the new list of instances. -/
theorem Becomes.recordedOf_eq (h : store.Becomes subject roster after) :
    after.recordedOf subject = roster := by
  rw [h.rosters, Function.update_self]

/-- Of two changes to a version the second one counts. -/
theorem Becomes.trans (h : store.Becomes subject roster after)
    (h' : after.Becomes subject roster' next) : store.Becomes subject roster' next where
  rostered := h'.rostered
  rosters := by rw [h'.rosters, h.rosters, Function.update_idem]

namespace Rostered

/-- A store becomes itself, with the list that it has. -/
theorem becomes_self (h : store.Rostered) (subject : String × String) :
    store.Becomes subject (store.recordedOf subject) store :=
  ⟨h, (Function.update_eq_self _ _).symm⟩

/-- A store becomes one that records the same instances of every other version. -/
theorem becomes_of (h : after.Rostered)
    (hothers : ∀ other, other ≠ subject → after.recordedOf other = store.recordedOf other) :
    store.Becomes subject (after.recordedOf subject) after := by
  refine ⟨h, funext fun other => ?_⟩
  rw [Function.update_apply]
  split
  · next heq => rw [heq]
  · next hne => exact hothers other hne

/-- Writing an instance with an index that is there replaces the one that has it. -/
theorem becomes_replace (h : store.Rostered) (hj : j ∈ store.recordedOf i.subject)
    (hindex : j.index = i.index) :
    store.Becomes i.subject
      ((store.recordedOf i.subject).map fun j => if j.index = i.index then i else j)
      (store.putInstance i) := by
  obtain ⟨hrecorded, hsubject⟩ := mem_recordedOf.mp hj
  have hplain : Plain i.subject := hsubject ▸ h.plain j hrecorded
  have hbelow : i.index.toNat < indexLimit := hindex ▸ h.below j hrecorded
  rw [← h.recordedOf_putInstance_of_mem hj hindex]
  exact (h.putInstance hplain hbelow).becomes_of fun _ hother =>
    h.recordedOf_putInstance_of_ne hplain hbelow hother

end Rostered

/-- Writing an instance with a higher index appends it. -/
theorem Becomes.append (h : store.Becomes subject roster after) (hi : i.subject = subject)
    (hplain : Plain subject) (hbelow : i.index.toNat < indexLimit)
    (hlast : ∀ j ∈ roster, j.index < i.index) :
    store.Becomes subject (roster ++ [i]) (after.putInstance i) := by
  subst hi
  obtain rfl := h.recordedOf_eq
  have hput :
      after.Becomes i.subject (after.recordedOf i.subject ++ [i]) (after.putInstance i) := by
    rw [← h.rostered.recordedOf_putInstance_last hplain hbelow hlast]
    exact (h.rostered.putInstance hplain hbelow).becomes_of fun _ hother =>
      h.rostered.recordedOf_putInstance_of_ne hplain hbelow hother
  exact h.trans hput

/-- Removing an instance drops the one with its index. -/
theorem Becomes.drop (h : store.Becomes subject roster after) (hplain : Plain subject)
    (index : UInt32) :
    store.Becomes subject (roster.filter (·.index ≠ index))
      (after.deleteInstance subject.1 subject.2 index).2 := by
  obtain rfl := h.recordedOf_eq
  rw [← h.rostered.recordedOf_deleteInstance hplain index]
  exact h.trans ((h.rostered.deleteInstance subject index).becomes_of fun _ hother =>
    h.rostered.recordedOf_deleteInstance_of_ne hplain index hother)

private theorem Rostered.deleteInstances (h : store.Rostered) (subject : String × String) :
    (store.deleteInstances subject.1 subject.2).2.Rostered := by
  have hkept : (store.deleteInstances subject.1 subject.2).2.Kept := by
    intro entry hentry
    rw [entries_deleteInstances] at hentry
    exact h.kept entry (List.mem_of_mem_filter hentry)
  have hold {i : Instance} (hi : i ∈ (store.deleteInstances subject.1 subject.2).2.recorded) :
      i ∈ store.recorded := by
    rw [hkept.mem_recorded, ← Table.mem_entries_iff, entries_deleteInstances] at hi
    exact h.kept.mem_recorded.mpr ((Table.mem_entries_iff _ _ _).mp (List.mem_of_mem_filter hi))
  exact ⟨hkept, fun i hi => h.plain i (hold hi), fun i hi => h.below i (hold hi)⟩

/-- Removing a version drops all its instances. -/
theorem Rostered.becomes_remove (h : store.Rostered) (hplain : Plain subject) :
    store.Becomes subject [] (store.deleteInstances subject.1 subject.2).2 := by
  rw [← h.kept.recordedOf_deleteInstances_of_shadows (.refl subject)]
  refine (h.deleteInstances subject).becomes_of fun other hother => ?_
  by_cases hshadows : Shadows subject other
  · have hnone : store.recordedOf other = [] := by
      rw [List.eq_nil_iff_forall_not_mem]
      intro i hi
      obtain ⟨hrecorded, hsubject⟩ := mem_recordedOf.mp hi
      have hsame := hshadows.eq_of_plains hplain (hsubject ▸ h.plain i hrecorded)
      exact hother hsame.symm
    rw [h.kept.recordedOf_deleteInstances_of_shadows hshadows, hnone]
  · exact h.kept.recordedOf_deleteInstances hshadows

end Store

end Rollout
