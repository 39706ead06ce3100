import Mathlib.Data.List.Basic
import Rollout.Toml.Document

/-!
# The range of numbers in a document

An integer in a document has 64 bits with a sign, wherever it stands: as the value of a key, in an
array, in a table. No number that a document gives is therefore beyond what can be written into one
again.
-/

namespace Rollout.Toml

/-- All integers in a value fit in 64 bits with a sign. -/
inductive Value.InRange : Value → Prop where
  | string (text : String) : InRange (.string text)
  | integer {i : Int} (hlow : -9223372036854775808 ≤ i) (hhigh : i ≤ 9223372036854775807) :
    InRange (.integer i)
  | float : InRange .float
  | boolean (b : Bool) : InRange (.boolean b)
  | datetime : InRange .datetime
  | array {items : List Value} (h : ∀ item ∈ items, item.InRange) : InRange (.array items)
  | tables {items : List (List (String × Value))}
    (h : ∀ entries ∈ items, ∀ entry ∈ entries, entry.2.InRange) : InRange (.tables items)
  | table (origin : Origin) {entries : List (String × Value)}
    (h : ∀ entry ∈ entries, entry.2.InRange) : InRange (.table origin entries)

namespace Entries

/-- All integers in the values of a table fit in 64 bits with a sign. -/
def InRange (entries : Entries) : Prop :=
  ∀ entry ∈ entries, entry.2.InRange

variable {entries entries' : Entries} {key : String} {value : Value}

private theorem inRange_nil : InRange [] := by
  simp [InRange]

private theorem InRange.append (h : InRange entries) (hvalue : value.InRange) :
    InRange (entries ++ [(key, value)]) :=
  List.forall_mem_append.mpr ⟨h, List.forall_mem_singleton.mpr hvalue⟩

/-- What is found in a table that is in range is in range. -/
theorem InRange.lookup (h : InRange entries) (hlookup : List.lookup key entries = some value) :
    value.InRange := by
  obtain ⟨before, after, rfl, -⟩ := List.lookup_eq_some_iff.mp hlookup
  exact h (key, value) (by simp)

private theorem InRange.set (h : InRange entries) (hvalue : value.InRange) :
    InRange (Entries.set key value entries) := by
  induction entries with
  | nil => exact List.forall_mem_singleton.mpr hvalue
  | cons entry rest ih =>
    obtain ⟨hentry, hrest⟩ := List.forall_mem_cons.mp h
    unfold Entries.set
    split
    · exact List.forall_mem_cons.mpr ⟨hvalue, hrest⟩
    · exact List.forall_mem_cons.mpr ⟨hentry, ih hrest⟩

/-- Adding a value in range keeps a table in range. -/
theorem InRange.add? (h : InRange entries) (hvalue : value.InRange)
    (hadd : Entries.add? key value entries = some entries') : InRange entries' := by
  unfold Entries.add? at hadd
  split at hadd
  · cases hadd
  · obtain rfl := Option.some.inj hadd
    exact h.append hvalue

/-- A change of tables that brings in no number out of range. -/
def Keeps (change : Origin → Entries → Option Entries) : Prop :=
  ∀ origin entries entries', InRange entries → change origin entries = some entries' →
    InRange entries'

/-- Changing a table inside others leaves the others in range. -/
theorem Keeps.descend {change : Origin → Entries → Option Entries} (h : Keeps change)
    (byDots : Bool) (path : List String) : Keeps (Entries.descend byDots change path) := by
  induction path with
  | nil => exact h
  | cons key path ih =>
    intro origin entries entries' hentries hdescend
    unfold Entries.descend at hdescend
    split at hdescend
    · obtain ⟨child, hchild, heq⟩ := Option.bind_eq_some_iff.mp hdescend
      obtain rfl := Option.some.inj heq
      exact hentries.append (.table _ (ih _ _ _ inRange_nil hchild))
    · next origin child hlookup =>
      split at hdescend
      · cases hdescend
      · obtain ⟨child', hchild, heq⟩ := Option.bind_eq_some_iff.mp hdescend
        obtain rfl := Option.some.inj heq
        cases hentries.lookup hlookup with
        | table _ hin => exact hentries.set (.table _ (ih _ _ _ hin hchild))
    -- Of an array of tables only the last one is changed.
    · next items hlookup =>
      split at hdescend
      · cases hdescend
      · next last hlast =>
        obtain ⟨last', hlast', heq⟩ := Option.bind_eq_some_iff.mp hdescend
        obtain rfl := Option.some.inj heq
        cases hentries.lookup hlookup with
        | tables hin =>
          have hlastin : InRange last' :=
            ih _ _ _ (hin last (List.mem_of_getLast? hlast)) hlast'
          refine hentries.set (.tables (List.forall_mem_append.mpr ⟨?_, ?_⟩))
          · exact fun item hitem => hin item (List.dropLast_subset _ hitem)
          · exact List.forall_mem_singleton.mpr hlastin
    · cases hdescend

/-- Adding a value in range under a dotted key keeps the tables in range. -/
theorem InRange.addDotted? {path : List String} {origin : Origin} (h : InRange entries)
    (hvalue : value.InRange)
    (hadd : Entries.addDotted? path key value origin entries = some entries') :
    InRange entries' := by
  refine Keeps.descend (fun origin entries entries' hentries hchange => ?_) true path _ _ _ h hadd
  split at hchange
  · cases hchange
  · exact hentries.add? hvalue hchange

/-- Opening a table brings in no number. -/
theorem keeps_openTable? (key : String) : Keeps fun _ => Entries.openTable? key := by
  intro origin entries entries' h hopen
  dsimp only [Entries.openTable?] at hopen
  split at hopen
  · obtain rfl := Option.some.inj hopen
    exact h.append (.table _ inRange_nil)
  · next child hlookup =>
    obtain rfl := Option.some.inj hopen
    cases h.lookup hlookup with
    | table _ hin => exact h.set (.table _ hin)
  · cases hopen

/-- Opening the next table of an array brings in no number. -/
theorem keeps_openNext? (key : String) : Keeps fun _ => Entries.openNext? key := by
  intro origin entries entries' h hopen
  dsimp only [Entries.openNext?] at hopen
  split at hopen
  · obtain rfl := Option.some.inj hopen
    exact h.append (.tables (List.forall_mem_singleton.mpr inRange_nil))
  · next items hlookup =>
    obtain rfl := Option.some.inj hopen
    cases h.lookup hlookup with
    | tables hin =>
      exact h.set (.tables (List.forall_mem_append.mpr
        ⟨hin, List.forall_mem_singleton.mpr inRange_nil⟩))
  · cases hopen

end Entries

/-! ## Values -/

private theorem bounded?_eq_some {i j : Int} (h : bounded? i = some j) :
    (Value.integer j).InRange := by
  unfold bounded? at h
  split at h
  · next hbounds =>
    obtain rfl := Option.some.inj h
    exact .integer hbounds.1 hbounds.2
  · cases h

private theorem integer?_eq_some {cs : List Char} {i : Int} (h : integer? cs = some i) :
    (Value.integer i).InRange := by
  have hbased (base : Nat) (ds : List Char) (h : basedInteger? base ds = some i) :
      (Value.integer i).InRange := by
    obtain ⟨_, -, hbounded⟩ := Option.bind_eq_some_iff.mp h
    exact bounded?_eq_some hbounded
  unfold integer? at h
  split at h
  · exact hbased _ _ h
  · exact hbased _ _ h
  · exact hbased _ _ h
  · obtain ⟨_, -, hbounded⟩ := Option.bind_eq_some_iff.mp h
    exact bounded?_eq_some hbounded

/-- A scalar that is read is in range. -/
theorem scalar?_eq_some {cs : List Char} {value : Value} (h : scalar? cs = some value) :
    value.InRange := by
  unfold scalar? at h
  split at h
  · obtain rfl := Option.some.inj h
    exact .boolean true
  · split at h
    · obtain rfl := Option.some.inj h
      exact .boolean false
    · split at h
      · next i hinteger =>
        obtain rfl := Option.some.inj h
        exact integer?_eq_some hinteger
      · split at h
        · obtain rfl := Option.some.inj h
          exact .float
        · split at h
          · obtain rfl := Option.some.inj h
            exact .datetime
          · cases h

/-- A reader that gives values in range. -/
def ValueReader.Ranged (read : ValueReader) : Prop :=
  ∀ cs value rest, read cs = some (value, rest) → value.InRange

private theorem ranged_readScalar : ValueReader.Ranged readScalar := by
  intro cs value rest h
  unfold readScalar at h
  dsimp only at h
  split at h
  · obtain ⟨rfl, -⟩ := Prod.mk.inj (Option.some.inj h)
    exact .datetime
  · obtain ⟨_, hscalar, heq⟩ := Option.map_eq_some_iff.mp h
    obtain ⟨rfl, -⟩ := Prod.mk.inj heq
    exact scalar?_eq_some hscalar

section Reader

variable {read : ValueReader}

/-- If the values that are read are in range, so are the items of an array. -/
theorem ValueReader.Ranged.items (hread : read.Ranged) {cs rest : List Char} {items : List Value}
    (h : readItems read cs = some (items, rest)) : ∀ item ∈ items, item.InRange := by
  fun_induction readItems read cs generalizing items rest with
  | case1 => cases h
  | case2 =>
    obtain ⟨rfl, -⟩ := Prod.mk.inj (Option.some.inj h)
    simp
  | case3 _ _ _ _ _ ih =>
    obtain ⟨⟨item, after⟩, hitem, h⟩ := Option.bind_eq_some_iff.mp h
    have hin : item.InRange := hread _ _ _ hitem
    dsimp only at h
    split at h
    · split at h
      · next hlength =>
        obtain ⟨⟨more, _⟩, hmore, heq⟩ := Option.bind_eq_some_iff.mp h
        obtain ⟨rfl, -⟩ := Prod.mk.inj (Option.some.inj heq)
        exact List.forall_mem_cons.mpr ⟨hin, ih _ hlength hmore⟩
      · cases h
    · obtain ⟨rfl, -⟩ := Prod.mk.inj (Option.some.inj h)
      exact List.forall_mem_singleton.mpr hin
    · cases h

private theorem ValueReader.Ranged.inlineEntries (hread : read.Ranged) {cs rest : List Char}
    {before entries : Entries} (hbefore : before.InRange)
    (h : readInlineEntries read before cs = some (entries, rest)) : entries.InRange := by
  fun_induction readInlineEntries read before cs generalizing entries rest with
  | case1 _ _ ih =>
    obtain ⟨⟨path, key, afterKey⟩, -, h⟩ := Option.bind_eq_some_iff.mp h
    obtain ⟨afterEquals, -, h⟩ := Option.bind_eq_some_iff.mp h
    obtain ⟨⟨value, afterValue⟩, hvalue, h⟩ := Option.bind_eq_some_iff.mp h
    obtain ⟨extended, hadd, h⟩ := Option.bind_eq_some_iff.mp h
    have hin : extended.InRange := hbefore.addDotted? (hread _ _ _ hvalue) hadd
    split at h
    · split at h
      · next hlength => exact ih _ _ hlength hin h
      · cases h
    · obtain ⟨rfl, -⟩ := Prod.mk.inj (Option.some.inj h)
      exact hin
    · cases h

/-- If the values that are read are in range, so are inline tables. -/
theorem ValueReader.Ranged.inlineTable (hread : read.Ranged) {cs rest : List Char}
    {entries : Entries} (h : readInlineTable read cs = some (entries, rest)) :
    entries.InRange := by
  unfold readInlineTable at h
  split at h
  · obtain ⟨rfl, -⟩ := Prod.mk.inj (Option.some.inj h)
    exact Entries.inRange_nil
  · exact hread.inlineEntries Entries.inRange_nil h

end Reader

/-- Reading keeps the range however deep arrays and tables stand inside one another. -/
theorem ranged_readValueWithin (levels : Nat) : (readValueWithin levels).Ranged := by
  induction levels using Nat.strongRecOn with
  | _ levels ih =>
    intro cs value rest
    fun_cases readValueWithin levels cs <;> intro h
    case case1 =>
      obtain ⟨_, -, heq⟩ := Option.map_eq_some_iff.mp h
      obtain ⟨rfl, -⟩ := Prod.mk.inj heq
      exact .string _
    case case2 => cases h
    case case3 inner _ =>
      obtain ⟨_, hitems, heq⟩ := Option.map_eq_some_iff.mp h
      obtain ⟨rfl, -⟩ := Prod.mk.inj heq
      exact .array ((ih inner (Nat.lt_succ_self inner)).items hitems)
    case case4 => cases h
    case case5 inner _ _ =>
      obtain ⟨_, hentries, heq⟩ := Option.map_eq_some_iff.mp h
      obtain ⟨rfl, -⟩ := Prod.mk.inj heq
      exact .table _ ((ih inner (Nat.lt_succ_self inner)).inlineTable hentries)
    case case6 => exact ranged_readScalar _ _ _ h
    case case7 => cases h

/-! ## Documents -/

/-- The value that a statement gives is in range. -/
def Statement.InRange : Statement → Prop
  | .keyValue _ _ value => value.InRange
  | .header _ _ => True
  | .nextHeader _ _ => True

private theorem inRange_of_readKeyValue {cs rest : List Char} {statement : Statement}
    (h : readKeyValue cs = some (statement, rest)) : statement.InRange := by
  obtain ⟨_, -, h⟩ := Option.bind_eq_some_iff.mp h
  obtain ⟨_, -, h⟩ := Option.bind_eq_some_iff.mp h
  obtain ⟨_, hvalue, h⟩ := Option.bind_eq_some_iff.mp h
  obtain ⟨_, -, heq⟩ := Option.bind_eq_some_iff.mp h
  obtain ⟨rfl, -⟩ := Prod.mk.inj (Option.some.inj heq)
  exact ranged_readValueWithin _ _ _ _ hvalue

private theorem inRange_of_readLine {cs rest : List Char} {statement : Statement}
    (h : readLine cs = some (some statement, rest)) : statement.InRange := by
  unfold readLine at h
  split at h
  · cases h
  · obtain ⟨_, -, heq⟩ := Option.map_eq_some_iff.mp h
    obtain rfl := Option.some.inj (Prod.mk.inj heq).1
    trivial
  · obtain ⟨_, -, heq⟩ := Option.map_eq_some_iff.mp h
    obtain rfl := Option.some.inj (Prod.mk.inj heq).1
    trivial
  · split at h
    · obtain ⟨_, -, heq⟩ := Option.map_eq_some_iff.mp h
      cases heq
    · obtain ⟨_, hread, heq⟩ := Option.map_eq_some_iff.mp h
      obtain rfl := Option.some.inj (Prod.mk.inj heq).1
      exact inRange_of_readKeyValue hread

/-- The statements of a document are in range. -/
theorem inRange_of_readStatements {cs : List Char} {statements : List Statement}
    (h : readStatements cs = some statements) : ∀ statement ∈ statements, statement.InRange := by
  fun_induction readStatements cs generalizing statements with
  | case1 =>
    obtain rfl := Option.some.inj h
    simp
  | case2 _ _ ih =>
    obtain ⟨⟨first, rest⟩, hline, h⟩ := Option.bind_eq_some_iff.mp h
    dsimp only at h
    split at h
    · next hlength =>
      obtain ⟨more, hmore, heq⟩ := Option.bind_eq_some_iff.mp h
      obtain rfl := Option.some.inj heq
      refine List.forall_mem_append.mpr ⟨?_, ih _ hlength hmore⟩
      intro statement hmem
      obtain rfl := Option.mem_toList.mp hmem
      exact inRange_of_readLine hline
    · cases h

/-- A statement in range keeps the document in range. -/
theorem Building.inRange_extend? {b b' : Building} {statement : Statement}
    (hstatement : statement.InRange) (hb : b.root.InRange)
    (h : b.extend? statement = some b') : b'.root.InRange := by
  cases statement with
  | keyValue path key value =>
    obtain ⟨root, hroot, heq⟩ := Option.bind_eq_some_iff.mp h
    obtain rfl := Option.some.inj heq
    exact Entries.Keeps.descend
      (fun _ _ _ hentries => hentries.addDotted? hstatement) false _ _ _ _ hb hroot
  | header path key =>
    obtain ⟨root, hroot, heq⟩ := Option.bind_eq_some_iff.mp h
    obtain rfl := Option.some.inj heq
    exact (Entries.keeps_openTable? key).descend false _ _ _ _ hb hroot
  | nextHeader path key =>
    obtain ⟨root, hroot, heq⟩ := Option.bind_eq_some_iff.mp h
    obtain rfl := Option.some.inj heq
    exact (Entries.keeps_openNext? key).descend false _ _ _ _ hb hroot

/-- What statements in range build is in range. -/
theorem Building.inRange_foldlM {statements : List Statement} {b b' : Building}
    (hstatements : ∀ statement ∈ statements, statement.InRange) (hb : b.root.InRange)
    (h : statements.foldlM Building.extend? b = some b') : b'.root.InRange := by
  induction statements generalizing b with
  | nil =>
    obtain rfl := Option.some.inj h
    exact hb
  | cons statement rest ih =>
    obtain ⟨hstatement, hrest⟩ := List.forall_mem_cons.mp hstatements
    obtain ⟨next, hnext, h⟩ := Option.bind_eq_some_iff.mp h
    exact ih hrest (inRange_extend? hstatement hb hnext) h

/-- **Every integer in a document has 64 bits with a sign.** -/
theorem inRange_of_parse? {s : String} {entries : Entries} (h : parse? s = some entries) :
    entries.InRange := by
  obtain ⟨statements, hstatements, h⟩ := Option.bind_eq_some_iff.mp h
  obtain ⟨built, hbuilt, heq⟩ := Option.bind_eq_some_iff.mp h
  obtain rfl := Option.some.inj heq
  exact Building.inRange_foldlM (inRange_of_readStatements hstatements) Entries.inRange_nil hbuilt

end Rollout.Toml
