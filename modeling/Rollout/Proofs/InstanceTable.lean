import Mathlib.Data.List.Basic
import Rollout.Proofs.KeyOrder
import Rollout.Proofs.Records
import Rollout.Scheduler.Local

/-!
# The instance table

All versions of all applications share one table of instances. Here the table is read as the list
of instances it holds, and the operations of the store are restated as what they leave of the
instances of one version. A version is told from another only by what its keys begin with, and
that can be the beginning of the other's keys too.
-/

namespace Rollout

/-! ## Keys -/

namespace Text

/-- A padded numeral has nothing but digits. -/
theorem isDigit_of_mem_padded {width n : Nat} {c : Char} (h : c ∈ (padded width n).toList) :
    isDigit c = true := by
  rw [padded, String.toList_ofList] at h
  rcases List.mem_append.mp h with h | h
  · rw [List.eq_of_mem_replicate h]
    rfl
  · exact isDigit_of_mem_digits h

end Text

namespace Instance

/-- The application and the version that an instance belongs to. -/
def subject (i : Instance) : String × String :=
  (i.appId, i.version)

/-- What the keys of a version begin with, as characters. -/
def startOf (subject : String × String) : List Char :=
  (keyStart subject.1 subject.2).toList

/-- The keys of the second version also begin as those of the first do. -/
def Shadows (first second : String × String) : Prop :=
  startOf first <+: startOf second

/-- Whether a version shadows another is seen from what their keys begin with. -/
instance (first second : String × String) : Decidable (Shadows first second) :=
  inferInstanceAs (Decidable (startOf first <+: startOf second))

private theorem startOf_eq (subject : String × String) :
    startOf subject = subject.1.toList ++ ':' :: (subject.2.toList ++ [':']) := by
  simp [startOf, keyStart]

/-- A version shadows itself. -/
theorem Shadows.refl (subject : String × String) : Shadows subject subject :=
  List.prefix_refl _

/-- What is shadowed by a shadowed version is shadowed too. -/
theorem Shadows.trans {first second third : String × String} (h : Shadows first second)
    (h' : Shadows second third) : Shadows first third :=
  List.IsPrefix.trans h h'

/-- A key is the beginning that all keys of its version have, and the padded index. -/
theorem toList_keyOf (appId version : String) (index : UInt32) :
    (keyOf appId version index).toList =
      startOf (appId, version) ++ (Text.padded 6 index.toNat).toList :=
  String.toList_append

/-- The digits of an index hold no colon, so a start that ends in one cannot reach into them. -/
theorem startOf_prefix_keyOf (first second : String × String) (index : UInt32) :
    startOf first <+: (keyOf second.1 second.2 index).toList ↔ Shadows first second := by
  rw [toList_keyOf]
  constructor
  · intro h
    by_cases hlength : (startOf first).length ≤ (startOf second).length
    · exact List.prefix_of_prefix_length_le h (List.prefix_append _ _) hlength
    · obtain ⟨beyond, hfirst⟩ := List.prefix_of_prefix_length_le
        (List.prefix_append _ _) h (Nat.le_of_not_le hlength)
      have hbeyond : beyond <+: (Text.padded 6 index.toNat).toList := by
        rwa [← hfirst, List.prefix_append_right_inj] at h
      rcases List.eq_nil_or_concat beyond with hnil | ⟨init, last, hlast⟩
      · rw [hnil, List.append_nil] at hfirst
        simp [hfirst] at hlength
      · -- The last character of the start is a colon, which is no digit.
        have hcolon := congrArg List.getLast? hfirst
        rw [hlast, startOf_eq first, List.concat_eq_append, ← List.append_assoc,
          List.getLast?_concat, ← List.cons_append, ← List.append_assoc, List.getLast?_concat]
          at hcolon
        have hcolon : last = ':' := Option.some.inj hcolon
        have hdigit := Text.isDigit_of_mem_padded
          (hbeyond.subset (by simp [hlast] : last ∈ beyond))
        rw [hcolon] at hdigit
        simp [Text.isDigit] at hdigit
  · exact fun h => List.IsPrefix.trans h (List.prefix_append _ _)

/-- The key of a version counts as one of another exactly if that one shadows it. -/
theorem isKeyOf_keyOf (first second : String × String) (index : UInt32) :
    Store.isKeyOf first.1 first.2 (keyOf second.1 second.2 index) = true ↔
      Shadows first second := by
  rw [Store.isKeyOf_iff]
  exact startOf_prefix_keyOf first second index

private theorem isKeyOf_key (subject : String × String) (i : Instance) :
    Store.isKeyOf subject.1 subject.2 i.key = true ↔ Shadows subject i.subject :=
  isKeyOf_keyOf subject i.subject i.index

/-- A key of one version is a key of another only if the first shadows the second. -/
theorem Shadows.of_keyOf_eq {first second : String × String} (index other : UInt32)
    (h : keyOf first.1 first.2 index = keyOf second.1 second.2 other) : Shadows first second := by
  rw [← startOf_prefix_keyOf first second other, ← h, startOf_prefix_keyOf]
  exact .refl first

private theorem eq_of_append_colon {a b rest rest' : List Char} (ha : ':' ∉ a) (hb : ':' ∉ b)
    (h : a ++ ':' :: rest = b ++ ':' :: rest') : a = b ∧ rest = rest' := by
  induction a generalizing b with
  | nil =>
    cases b with
    | nil => simpa using h
    | cons c b =>
      obtain ⟨rfl, -⟩ := List.cons.inj h
      simp at hb
  | cons c a ih =>
    cases b with
    | nil =>
      obtain ⟨rfl, -⟩ := List.cons.inj h
      simp at ha
    | cons c' b =>
      obtain ⟨rfl, htail⟩ := List.cons.inj h
      rw [List.mem_cons, not_or] at ha hb
      obtain ⟨rfl, rfl⟩ := ih ha.2 hb.2 htail
      exact ⟨rfl, rfl⟩

/-- Two versions of applications without colons in their names shadow each other only if they are
the same, as long as the version whose keys are looked at has no colon either. -/
theorem Shadows.eq_of_plain {first second : String × String} (h : Shadows first second)
    (hfirst : ':' ∉ first.1.toList) (hsecond : ':' ∉ second.1.toList)
    (hversion : ':' ∉ second.2.toList) : first = second := by
  obtain ⟨beyond, h⟩ := h
  rw [startOf_eq, startOf_eq, List.append_assoc, List.cons_append, List.append_assoc] at h
  obtain ⟨happ, h⟩ := eq_of_append_colon hfirst hsecond h
  have hfree : ':' ∉ first.2.toList := by
    intro hmem
    have hcount := congrArg (List.count ':') h
    have hpos := List.count_pos_iff.mpr hmem
    have hzero := List.count_eq_zero.mpr hversion
    simp only [List.count_append, List.singleton_append, List.count_cons_self,
      List.count_nil] at hcount
    omega
  obtain ⟨hsame, -⟩ := eq_of_append_colon hfree hversion h
  exact Prod.ext (String.toList_inj.mp happ) (String.toList_inj.mp hsame)

/-- Of two versions of one application the first shadows the second if their names begin alike up
to the end of the first, and the second goes on with a colon or not at all. -/
theorem shadows_of_app (appId version other : String) :
    Shadows (appId, version) (appId, other) ↔
      version.toList ++ [':'] <+: other.toList ++ [':'] := by
  rw [Shadows, startOf_eq, startOf_eq, List.prefix_append_right_inj, List.cons_prefix_cons]
  exact and_iff_right rfl

end Instance

/-! ## What a table holds -/

namespace Store

open Instance (Shadows)

/-- The instances in a table, in the order of their keys. -/
def recorded (store : Store) : List Instance :=
  store.instances.values.filterMap Instance.ofText?

/-- The instances of a version in a table, whatever keys they stand under. -/
def recordedOf (store : Store) (subject : String × String) : List Instance :=
  store.recorded.filter (·.subject = subject)

/-- Every entry of the table is an instance under its own key, as it is when instances are put
into a table and taken out of it. -/
def Kept (store : Store) : Prop :=
  ∀ entry ∈ store.instances.entries, ∃ i : Instance, entry = (i.key, i.toText)

variable {store : Store} {subject other : String × String}

private theorem filter_recorded (store : Store) (p : Instance → Bool) :
    store.recorded.filter p =
      store.instances.entries.filterMap fun entry => (Instance.ofText? entry.2).filter p := by
  rw [recorded, Table.values, List.filterMap_map, List.filter_filterMap]
  rfl

/-- A store with no instances keeps them under their keys. -/
theorem kept_empty (deployments : Table String) : Kept ⟨deployments, .empty⟩ := by
  intro entry hentry
  cases hentry

/-- An instance is put into the table under its own key. -/
theorem Kept.putInstance (h : store.Kept) (i : Instance) : (store.putInstance i).Kept := by
  intro entry hentry
  rcases Table.mem_place hentry with rfl | hentry
  · exact ⟨i, rfl⟩
  · exact h entry hentry

/-- Deleting an instance leaves the others under their keys. -/
theorem Kept.deleteInstance (h : store.Kept) (appId version : String) (index : UInt32) :
    (store.deleteInstance appId version index).2.Kept :=
  fun entry hentry => h entry (List.mem_of_mem_filter hentry)

/-- A kept table can be read, and what is found under a version are the instances of all the
versions that it shadows. -/
theorem Kept.instanceList_eq (h : store.Kept) (subject : String × String) :
    store.instanceList subject.1 subject.2 =
      .ok (store.recorded.filter fun i => Shadows subject i.subject) := by
  rw [filter_recorded, instanceList, instanceEntries_eq]
  unfold Kept at h
  generalize store.instances.entries = entries at h ⊢
  induction entries with
  | nil => rfl
  | cons entry rest ih =>
    obtain ⟨hfirst, hrest⟩ := List.forall_mem_cons.mp h
    obtain ⟨i, rfl⟩ := hfirst
    have ih := ih hrest
    have hkey := Instance.isKeyOf_key subject i
    by_cases hi : Shadows subject i.subject
    · simp only [List.filter_cons, hkey.mpr hi, if_true, List.map_cons, List.mapM_cons, ih,
        readInstance, Instance.ofText?_toText, List.filterMap_cons, Option.filter, hi,
        decide_true]
      rfl
    · simp only [List.filter_cons, mt hkey.mp hi, if_false, ih, Instance.ofText?_toText,
        List.filterMap_cons, Option.filter, hi, decide_false, Bool.false_eq_true]

/-! ## Writes -/

/-- Entries of other versions may go without a trace in the records of a version. -/
theorem recordedOf_filter (h : store.Kept) {p : String × String → Bool}
    (hp : ∀ i : Instance, i.subject = subject → p (i.key, i.toText) = true) :
    (store.instances.entries.filter p).filterMap (fun entry =>
        (Instance.ofText? entry.2).filter (·.subject = subject)) = store.recordedOf subject := by
  rw [recordedOf, filter_recorded, List.filterMap_filter]
  refine List.filterMap_congr fun entry hentry => ?_
  obtain ⟨i, rfl⟩ := h entry hentry
  by_cases hi : i.subject = subject
  · rw [if_pos (hp i hi)]
  · rw [Instance.ofText?_toText, Option.filter_some_neg (by simpa using hi), ite_self]

/-- Removing an instance leaves the instances of every version that its own does not shadow. -/
theorem Kept.recordedOf_deleteInstance (h : store.Kept) (hfree : ¬Shadows subject other)
    (index : UInt32) :
    (store.deleteInstance subject.1 subject.2 index).2.recordedOf other =
      store.recordedOf other := by
  refine (filter_recorded _ _).trans (recordedOf_filter h fun i hi => ?_)
  rw [bne_iff_ne]
  intro heq
  refine hfree (.of_keyOf_eq index i.index ?_)
  rw [← hi]
  exact heq.symm

/-- Removing a version leaves the instances of every version that it does not shadow. -/
theorem Kept.recordedOf_deleteInstances (h : store.Kept) (hfree : ¬Shadows subject other) :
    (store.deleteInstances subject.1 subject.2).2.recordedOf other = store.recordedOf other := by
  rw [recordedOf, filter_recorded, entries_deleteInstances]
  refine recordedOf_filter h fun i hi => ?_
  rw [Bool.not_eq_true', ← Bool.not_eq_true, Instance.isKeyOf_key, hi]
  exact hfree

/-- Removing a version takes the instances of every version that it shadows. -/
theorem Kept.recordedOf_deleteInstances_of_shadows (h : store.Kept)
    (hshadows : Shadows subject other) :
    (store.deleteInstances subject.1 subject.2).2.recordedOf other = [] := by
  rw [recordedOf, filter_recorded, entries_deleteInstances, List.filterMap_eq_nil_iff]
  intro entry hentry
  obtain ⟨hentry, hleft⟩ := List.mem_filter.mp hentry
  obtain ⟨i, rfl⟩ := h entry hentry
  by_cases hi : i.subject = other
  · have hkey := (Instance.isKeyOf_key subject i).mpr (hi ▸ hshadows)
    simp [hkey] at hleft
  · simp [hi]

end Store

/-- Placing an entry that does not count, in place of none that counts, leaves what counts. -/
theorem Table.filterMap_place {α β : Type} {f : String × α → Option β} {key : String} {value : α}
    {entries : List (String × α)} (hnew : f (key, value) = none)
    (hold : ∀ entry ∈ entries, entry.1 = key → f entry = none) :
    (place key value entries).filterMap f = entries.filterMap f := by
  induction entries with
  | nil => simp [place, hnew]
  | cons entry rest ih =>
    obtain ⟨hfirst, hrest⟩ := List.forall_mem_cons.mp hold
    unfold place
    split
    · exact List.filterMap_cons_none hnew
    · split
      · next heq =>
        rw [List.filterMap_cons_none hnew, List.filterMap_cons_none (hfirst heq.symm)]
      · rw [List.filterMap_cons, List.filterMap_cons, ih hrest]

namespace Store

open Instance (Shadows)

variable {store : Store} {other : String × String}

/-- Writing an instance leaves the instances of every version that its own does not shadow. -/
theorem Kept.recordedOf_putInstance (h : store.Kept) {i : Instance}
    (hfree : ¬Shadows i.subject other) :
    (store.putInstance i).recordedOf other = store.recordedOf other := by
  have hforeign {j : Instance} (hj : j.subject ≠ other) :
      (Instance.ofText? j.toText).filter (·.subject = other) = none := by
    simp [hj]
  refine (filter_recorded _ _).trans
    ((Table.filterMap_place (hforeign ?_) fun entry hentry hkey => ?_).trans
      (filter_recorded _ _).symm)
  · exact fun heq => hfree (heq ▸ .refl _)
  · obtain ⟨j, rfl⟩ := h entry hentry
    refine hforeign fun heq => hfree (.of_keyOf_eq i.index j.index ?_)
    rw [← heq]
    exact hkey.symm

/-- An instance that is written into an empty table is the only one there. -/
theorem recordedOf_putInstance_empty (deployments : Table String) (i : Instance) :
    (putInstance ⟨deployments, .empty⟩ i).recordedOf i.subject = [i] := by
  refine (filter_recorded _ _).trans ?_
  simp [putInstance, Table.insert, Table.empty, Table.place, Option.filter]

/-- What each of several writes leaves alone, all of them do. -/
theorem recordedOf_foldl {α : Type} {write : Store → α → Store} {items : List α}
    (hwrite : ∀ store : Store, store.Kept → ∀ item ∈ items,
      (write store item).Kept ∧ (write store item).recordedOf other = store.recordedOf other)
    (h : store.Kept) :
    (items.foldl write store).recordedOf other = store.recordedOf other := by
  induction items generalizing store with
  | nil => rfl
  | cons item items ih =>
    obtain ⟨hkept, hsame⟩ := hwrite store h item List.mem_cons_self
    have hrest := ih (fun store hstore next hnext =>
      hwrite store hstore next (List.mem_cons_of_mem item hnext)) hkept
    rw [List.foldl_cons, hrest, hsame]

end Store

end Rollout
