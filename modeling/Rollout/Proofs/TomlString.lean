import Mathlib.Data.List.Basic
import Mathlib.Tactic.SplitIfs
import Rollout.Toml.Quoted

/-!
# Strings are read back

Which of its four forms a string takes depends on the characters in it, and each form is undone by
rules of its own. Here they are shown to fit: the text before the closing delimiter is never taken
for the delimiter, quotes next to it are told from it, a line break after the opening delimiter is
one that was put there, and every escape stands for the character that it was written for.
-/

namespace Rollout.Toml

variable {cs rest : List Char} {c : Char}

/-! ## Escapes -/

private theorem ofNatAux_toNat {n : Nat} (h : n = c.toNat) :
    (if h : n.isValidChar then some (Char.ofNatAux n h) else none) = some c := by
  subst h
  exact dif_pos c.valid

private theorem codePoint?_hex (c : Char) (h : c.toNat < 256) :
    codePoint? ['0', '0', Text.hexDigitUpper (c.toNat / 16), Text.hexDigitUpper (c.toNat % 16)] =
      some c := by
  have hzero : Text.hexValue? '0' = some 0 := rfl
  have hhigh : Text.hexValue? (Text.hexDigitUpper (c.toNat / 16)) = some (c.toNat / 16) :=
    Text.hexValue_hexDigitUpper (by omega)
  have hlow : Text.hexValue? (Text.hexDigitUpper (c.toNat % 16)) = some (c.toNat % 16) :=
    Text.hexValue_hexDigitUpper (by omega)
  have hdigits : ['0', '0', Text.hexDigitUpper (c.toNat / 16),
      Text.hexDigitUpper (c.toNat % 16)].mapM Text.hexValue? =
        some [0, 0, c.toNat / 16, c.toNat % 16] := by
    simp [List.mapM_cons, hzero, hhigh, hlow]
  have hnumber : 16 * (16 * (16 * (16 * 0 + 0) + 0) + c.toNat / 16) + c.toNat % 16 = c.toNat := by
    omega
  unfold codePoint?
  rw [hdigits]
  exact ofNatAux_toNat hnumber

/-- An escape is read as the character that it was written for, and not as a line break that is
taken back. -/
theorem readEscape_of_escape? {escaped : List Char} (h : escape? c = some escaped) :
    ∃ tail, escaped = '\\' :: tail ∧ (∀ rest, readEscape (tail ++ rest) = some (c, rest)) ∧
      ∀ rest, afterJoin? (tail ++ rest) = none := by
  unfold escape? at h
  split_ifs at h with hback htab hfeed hreturn hslash hcontrol
  all_goals obtain rfl := Option.some.inj h
  · subst hback
    exact ⟨['b'], rfl, fun _ => rfl, fun _ => rfl⟩
  · subst htab
    exact ⟨['t'], rfl, fun _ => rfl, fun _ => rfl⟩
  · subst hfeed
    exact ⟨['f'], rfl, fun _ => rfl, fun _ => rfl⟩
  · subst hreturn
    exact ⟨['r'], rfl, fun _ => rfl, fun _ => rfl⟩
  · subst hslash
    exact ⟨['\\'], rfl, fun _ => rfl, fun _ => rfl⟩
  · have hlt : c.toNat < 256 := by
      simp only [isControl, Bool.or_eq_true, Bool.and_eq_true, decide_eq_true_eq, beq_iff_eq]
        at hcontrol
      omega
    refine ⟨_, rfl, fun rest => ?_, fun _ => rfl⟩
    show (codePoint? ['0', '0', Text.hexDigitUpper (c.toNat / 16),
      Text.hexDigitUpper (c.toNat % 16)]).map _ = _
    rw [codePoint?_hex c hlt]
    rfl

/-- What is not escaped may stand in a string as it is. -/
theorem plain_of_escape? (h : escape? c = none) : c ≠ '\\' ∧ c ≠ '\r' ∧ isControl c = false := by
  unfold escape? at h
  split_ifs at h with hback htab hfeed hreturn hslash hcontrol
  exact ⟨hslash, hreturn, by simpa using hcontrol⟩

/-- How a character is written in a basic string after `run` unescaped quotes, and how many
unescaped quotes there are then. -/
inductive Written (multiline : Bool) (run : Nat) (c : Char) : Nat → List Char → Prop where
  | quote (hmultiline : multiline = true) (hrun : run < 2) (hc : c = '"') :
    Written multiline run c (run + 1) [c]
  | plain (hquote : c ≠ '"') (hslash : c ≠ '\\') (hreturn : c ≠ '\r')
    (hline : c = '\n' → multiline = true) (hcontrol : isControl c = false) :
    Written multiline run c 0 [c]
  | escaped {tail : List Char} (hread : ∀ rest, readEscape (tail ++ rest) = some (c, rest))
    (hjoin : ∀ rest, afterJoin? (tail ++ rest) = none) : Written multiline run c 0 ('\\' :: tail)

/-- A text is written character by character, each after the quotes that the ones before it have
left. -/
theorem exists_written (multiline : Bool) (run : Nat) (c : Char) (cs : List Char) :
    ∃ next first, Written multiline run c next first ∧
      escapeFrom multiline run (c :: cs) = first ++ escapeFrom multiline next cs := by
  rw [escapeFrom]
  split_ifs with hquote hrun hline
  · simp only [Bool.and_eq_true, decide_eq_true_eq] at hrun
    exact ⟨_, [c], .quote hrun.1 hrun.2 hquote, by rw [hquote]; rfl⟩
  · subst hquote
    exact ⟨0, ['\\', '"'], .escaped (fun _ => rfl) (fun _ => rfl), rfl⟩
  · simp only [Bool.and_eq_true, decide_eq_true_eq] at hline
    obtain ⟨rfl, -⟩ := hline
    exact ⟨0, ['\\', 'n'], .escaped (fun _ => rfl) (fun _ => rfl), rfl⟩
  · cases hescape : escape? c with
    | some escaped =>
      obtain ⟨tail, rfl, hread, hjoin⟩ := readEscape_of_escape? hescape
      exact ⟨0, _, .escaped hread hjoin, rfl⟩
    | none =>
      obtain ⟨hslash, hreturn, hcontrol⟩ := plain_of_escape? hescape
      refine ⟨0, [c], .plain hquote hslash hreturn (fun hc => ?_) hcontrol, rfl⟩
      simpa [hc] using hline

/-! ## One line -/

private theorem readBasic_escape {tail : List Char} (hread : readEscape tail = some (c, rest)) :
    readBasic ('\\' :: tail) = consRead c (readBasic rest) := by
  rw [readBasic]
  simp only [Char.reduceEq, if_false, if_true]
  split
  · next e rest' hsome =>
    obtain ⟨rfl, rfl⟩ := Prod.mk.inj (Option.some.inj (hsome.symm.trans hread))
    rfl
  · next hnone => simp [hread] at hnone

private theorem readBasic_plain (hquote : c ≠ '"') (hslash : c ≠ '\\') (hline : c ≠ '\n')
    (hcontrol : isControl c = false) : readBasic (c :: rest) = consRead c (readBasic rest) := by
  rw [readBasic, if_neg hquote, if_neg hslash, if_neg (by simp [hcontrol, hline])]

/-- A basic string is read up to its closing quote as the text that was escaped. -/
theorem readBasic_escapeFrom (run : Nat) (cs rest : List Char) :
    readBasic (escapeFrom false run cs ++ '"' :: rest) = some (cs, rest) := by
  induction cs generalizing run with
  | nil =>
    show readBasic ('"' :: rest) = _
    rw [readBasic, if_pos rfl]
  | cons c cs ih =>
    obtain ⟨next, first, hwritten, heq⟩ := exists_written false run c cs
    rw [heq, List.append_assoc]
    cases hwritten with
    | quote hmultiline => cases hmultiline
    | plain hquote hslash hreturn hline hcontrol =>
      have hbreak : c ≠ '\n' := fun hc => Bool.false_ne_true (hline hc)
      rw [List.singleton_append, readBasic_plain hquote hslash hbreak hcontrol, ih]
      rfl
    | escaped hread =>
      rw [List.cons_append, readBasic_escape (hread _), ih]
      rfl

/-- A literal string is read up to its closing quote as it stands. -/
theorem readLiteral_append (hquote : '\'' ∉ cs) (hline : '\n' ∉ cs)
    (hcontrol : ∀ c ∈ cs, isControl c = false) :
    readLiteral (cs ++ '\'' :: rest) = some (cs, rest) := by
  induction cs with
  | nil => rfl
  | cons c cs ih =>
    rw [List.mem_cons, not_or] at hquote hline
    obtain ⟨hc, hcs⟩ := List.forall_mem_cons.mp hcontrol
    have hnot : ¬(isControl c || decide (c = '\n')) = true := by simp [hc, Ne.symm hline.1]
    rw [List.cons_append, readLiteral, if_neg (Ne.symm hquote.1), if_neg hnot,
      ih hquote.2 hline.2 hcs]
    rfl

/-! ## Several lines -/

/-- A quote may not stand three times at the front of what comes before a closing delimiter. Then
the delimiter is found exactly if nothing but quotes stands before it. -/
theorem closing?_append {q : Char} {text : List Char} (htriple : ¬[q, q, q] <+: text)
    (hrest : ∀ c ∈ rest.head?, c ≠ q) :
    closing? q (text ++ q :: q :: q :: rest) =
      if text.all (· = q) then some (text, rest) else none := by
  match text with
  | [] =>
    match rest with
    | [] => simp [closing?]
    | [a] =>
      have ha : a ≠ q := by simpa using hrest
      simp [closing?, ha]
    | a :: b :: rest =>
      have ha : a ≠ q := by simpa using hrest
      simp [closing?, ha]
  | [a] =>
    by_cases ha : a = q
    · subst ha
      match rest with
      | [] => simp [closing?]
      | b :: rest =>
        have hb : b ≠ a := by simpa using hrest
        simp [closing?, hb]
    · simp [closing?, ha]
  | [a, b] =>
    by_cases ha : a = q
    · by_cases hb : b = q
      · subst ha
        subst hb
        simp [closing?]
      · simp [closing?, hb]
    · simp [closing?, ha]
  | a :: b :: c :: text =>
    have hnot : ¬(a = q ∧ b = q ∧ c = q) := by
      rintro ⟨rfl, rfl, rfl⟩
      exact htriple ⟨text, rfl⟩
    have hall : ¬(a :: b :: c :: text).all (· = q) = true := by
      intro hall
      have hall : ∀ d ∈ a :: b :: c :: text, d = q := by simpa using hall
      exact hnot ⟨hall a (by simp), hall b (by simp), hall c (by simp)⟩
    rw [if_neg hall]
    simp [closing?, hnot]

/-- Unescaped quotes are counted, so that no three of them stand in a row. -/
theorem not_quotes_prefix_escapeFrom {run more : Nat} (hthree : 3 ≤ run + more) (hmore : 0 < more)
    (cs : List Char) : ¬List.replicate more '"' <+: escapeFrom true run cs := by
  induction cs generalizing run more with
  | nil =>
    intro hprefix
    have hlength := hprefix.length_le
    rw [List.length_replicate] at hlength
    exact Nat.not_lt.mpr hlength hmore
  | cons c cs ih =>
    obtain ⟨more, rfl⟩ := Nat.exists_eq_succ_of_ne_zero (Nat.ne_of_gt hmore)
    obtain ⟨next, first, hwritten, heq⟩ := exists_written true run c cs
    rw [heq, List.replicate_succ]
    cases hwritten with
    | quote _ hrun hc =>
      rw [List.singleton_append, List.cons_prefix_cons]
      exact fun hprefix => ih (by omega) (by omega) hprefix.2
    | plain hquote =>
      rw [List.singleton_append, List.cons_prefix_cons]
      exact fun hprefix => hquote hprefix.1.symm
    | escaped =>
      rw [List.cons_append, List.cons_prefix_cons]
      exact fun hprefix => absurd hprefix.1 (by decide)

/-- Only quotes are written as quotes. -/
theorem escapeFrom_eq_of_quotes {run : Nat}
    (h : ∀ c ∈ escapeFrom true run cs, c = '"') : escapeFrom true run cs = cs := by
  induction cs generalizing run with
  | nil => rfl
  | cons c cs ih =>
    obtain ⟨next, first, hwritten, heq⟩ := exists_written true run c cs
    rw [heq] at h ⊢
    obtain ⟨hfirst, hnext⟩ := List.forall_mem_append.mp h
    cases hwritten with
    | quote => rw [List.singleton_append, ih hnext]
    | plain hquote => exact absurd (hfirst c (by simp)) hquote
    | escaped => exact absurd (hfirst '\\' (by simp)) (by decide)

/-- The closing delimiter is found behind what is written exactly if only quotes are left. -/
theorem closing?_escapeFrom (run : Nat) (cs : List Char) (hrest : ∀ c ∈ rest.head?, c ≠ '"') :
    closing? '"' (escapeFrom true run cs ++ '"' :: '"' :: '"' :: rest) =
      if (escapeFrom true run cs).all (· = '"') then some (cs, rest) else none := by
  have htriple : ¬List.replicate 3 '"' <+: escapeFrom true run cs :=
    not_quotes_prefix_escapeFrom (Nat.le_add_left 3 run) (by decide) cs
  rw [closing?_append htriple hrest]
  refine ite_congr rfl (fun hquotes => ?_) fun _ => rfl
  rw [escapeFrom_eq_of_quotes (by simpa using hquotes)]

private theorem readMultilineBasic_of_closing {found : List Char × List Char}
    (h : closing? '"' cs = some found) : readMultilineBasic cs = some found := by
  rw [readMultilineBasic.eq_def, h]

private theorem readMultilineBasic_plain (hclosing : closing? '"' (c :: rest) = none)
    (hslash : c ≠ '\\') (hreturn : c ≠ '\r') (hcontrol : isControl c = false) :
    readMultilineBasic (c :: rest) = consRead c (readMultilineBasic rest) := by
  rw [readMultilineBasic.eq_def, hclosing]
  simp only
  split
  · next heq => cases heq
  · next heq => exact absurd (List.cons.inj heq).1 hreturn
  · next heq =>
    obtain ⟨rfl, rfl⟩ := List.cons.inj heq
    rw [if_neg hslash, if_neg (by simp [hcontrol])]

private theorem readMultilineBasic_escape {tail : List Char}
    (hclosing : closing? '"' ('\\' :: tail) = none)
    (hjoin : afterJoin? tail = none) (hread : readEscape tail = some (c, rest)) :
    readMultilineBasic ('\\' :: tail) = consRead c (readMultilineBasic rest) := by
  rw [readMultilineBasic.eq_def, hclosing]
  simp only
  split
  · next heq => cases heq
  · next heq => cases heq
  · next heq =>
    obtain ⟨rfl, rfl⟩ := List.cons.inj heq
    rw [if_pos rfl]
    split
    · next hsome => simp [hjoin] at hsome
    · split
      · next e rest' hsome =>
        obtain ⟨rfl, rfl⟩ := Prod.mk.inj (Option.some.inj (hsome.symm.trans hread))
        rfl
      · next hnone => simp [hread] at hnone

/-- A basic string of several lines is read up to its three closing quotes as the text that was
escaped. -/
theorem readMultilineBasic_escapeFrom (run : Nat) (cs : List Char)
    (hrest : ∀ c ∈ rest.head?, c ≠ '"') :
    readMultilineBasic (escapeFrom true run cs ++ '"' :: '"' :: '"' :: rest) = some (cs, rest) := by
  induction cs generalizing run with
  | nil =>
    have hclosing := closing?_escapeFrom run [] hrest
    rw [escapeFrom, if_pos List.all_nil] at hclosing
    exact readMultilineBasic_of_closing hclosing
  | cons c cs ih =>
    have hclosing := closing?_escapeFrom run (c :: cs) hrest
    split at hclosing
    -- What is left are quotes, which belong to the text although the delimiter is found here.
    · exact readMultilineBasic_of_closing hclosing
    · obtain ⟨next, first, hwritten, heq⟩ := exists_written true run c cs
      rw [heq, List.append_assoc] at hclosing ⊢
      cases hwritten with
      | quote _ _ hc =>
        subst hc
        exact (readMultilineBasic_plain hclosing (by decide) (by decide) rfl).trans
          (congrArg (consRead _) (ih _))
      | plain _ hslash hreturn _ hcontrol =>
        exact (readMultilineBasic_plain hclosing hslash hreturn hcontrol).trans
          (congrArg (consRead _) (ih _))
      | escaped hread hjoin =>
        exact (readMultilineBasic_escape hclosing (hjoin _) (hread _)).trans
          (congrArg (consRead _) (ih _))

private theorem not_starts_triple {q : Char} (h : hasTriple q cs = false) : ¬[q, q, q] <+: cs := by
  rintro ⟨rest, rfl⟩
  simp [hasTriple] at h

private theorem hasTriple_tail {q : Char} (h : hasTriple q (c :: cs) = false) :
    hasTriple q cs = false := by
  match cs with
  | [] | [_] => rfl
  | a :: b :: cs =>
    rw [hasTriple, Bool.or_eq_false_iff] at h
    exact h.2

/-- A literal string of several lines is read up to its three closing quotes as it stands. -/
theorem readMultilineLiteral_append (htriple : hasTriple '\'' cs = false)
    (hcontrol : ∀ c ∈ cs, isControl c = false) (hrest : ∀ c ∈ rest.head?, c ≠ '\'') :
    readMultilineLiteral (cs ++ '\'' :: '\'' :: '\'' :: rest) = some (cs, rest) := by
  induction cs with
  | nil =>
    have hclosing := closing?_append (not_starts_triple htriple) hrest
    rw [readMultilineLiteral.eq_def, hclosing, if_pos List.all_nil]
  | cons c cs ih =>
    have hclosing := closing?_append (not_starts_triple htriple) hrest
    rw [readMultilineLiteral.eq_def, hclosing]
    obtain ⟨hc, hcs⟩ := List.forall_mem_cons.mp hcontrol
    have hreturn : c ≠ '\r' := by
      rintro rfl
      cases hc
    split_ifs with hquotes
    · rfl
    · simp only [List.cons_append]
      split
      · next heq => cases heq
      · next heq => exact absurd (List.cons.inj heq).1 hreturn
      · next heq =>
        obtain ⟨rfl, rfl⟩ := List.cons.inj heq
        rw [if_neg (by simp [hc]), ih (hasTriple_tail htriple) hcs]
        rfl

/-! ## All forms -/

/-- What a text must be for a form in which nothing is escaped. -/
inductive Style.Fits (cs : List Char) : Style → Prop where
  | basic : Fits cs .basic
  | literal (hquote : '\'' ∉ cs) (hline : '\n' ∉ cs) (hcontrol : ∀ c ∈ cs, isControl c = false) :
    Fits cs .literal
  | multilineBasic : Fits cs .multilineBasic
  | multilineLiteral (htriple : hasTriple '\'' cs = false)
    (hcontrol : ∀ c ∈ cs, isControl c = false) : Fits cs .multilineLiteral

/-- The form that is chosen for a text fits it. -/
theorem Style.fits_choose (cs : List Char) : Style.Fits cs (Style.choose cs) := by
  unfold choose
  dsimp only
  split_ifs with hbasic hliteral hmultiline htriple
  · exact .basic
  · simp only [Bool.and_eq_true, Bool.not_eq_true', List.any_eq_false, List.contains_eq_mem,
      decide_eq_false_iff_not, Bool.not_eq_true] at hliteral
    exact .literal hliteral.2 hliteral.1.2 hliteral.1.1
  · exact .multilineBasic
  · simp only [Bool.and_eq_true, Bool.not_eq_true', List.any_eq_false, Bool.not_eq_true]
      at htriple
    exact .multilineLiteral htriple.2 htriple.1
  · exact .multilineBasic
  · exact .basic

/-- A line break at the front of what follows the delimiter is one that was put there, unless the
text has line breaks. -/
theorem dropNewline_leadingNewline {text : List Char}
    (h : '\n' ∉ cs → ∀ c ∈ text.head?, c ≠ '\n' ∧ c ≠ '\r') :
    dropNewline (leadingNewline cs ++ text) = text := by
  by_cases hline : '\n' ∈ cs
  · simp [leadingNewline, hline, dropNewline, afterNewline?]
  · have hhead := h hline
    simp only [leadingNewline, List.contains_eq_mem, hline, decide_false, Bool.false_eq_true,
      if_false, List.nil_append, dropNewline]
    have hnone : afterNewline? text = none := by
      unfold afterNewline?
      split
      · exact absurd rfl (hhead '\n' rfl).1
      · exact absurd rfl (hhead '\r' rfl).2
      · rfl
    rw [hnone]
    rfl

/-- What is written for a text without line breaks does not begin with one. -/
theorem head?_escapeFrom (hline : '\n' ∉ cs) (hrest : ∀ c ∈ rest.head?, c ≠ '\n' ∧ c ≠ '\r') :
    ∀ c ∈ (escapeFrom true 0 cs ++ rest).head?, c ≠ '\n' ∧ c ≠ '\r' := by
  cases cs with
  | nil => exact hrest
  | cons c cs =>
    obtain ⟨next, first, hwritten, heq⟩ := exists_written true 0 c cs
    rw [heq]
    cases hwritten with
    | quote _ _ hc => simp [hc]
    | plain _ _ hreturn =>
      have hc : c ≠ '\n' := fun hc => hline (by simp [hc])
      simp [hc, hreturn]
    | escaped => simp

private theorem readString_multilineBasic (text : List Char) :
    readString ('"' :: '"' :: '"' :: text) = readMultilineBasic (dropNewline text) :=
  rfl

private theorem readString_multilineLiteral (text : List Char) :
    readString ('\'' :: '\'' :: '\'' :: text) = readMultilineLiteral (dropNewline text) :=
  rfl

/-- Two quotes at the front open a string of several lines only if a third one follows. -/
theorem readString_line {q : Char} {text : List Char} (hq : q = '"' ∨ q = '\'')
    (htriple : ¬[q, q] <+: text) : readString (q :: text) = readLineString (q :: text) := by
  have hnot : ¬[q, q].isPrefixOf text = true := mt List.isPrefixOf_iff_prefix.mp htriple
  rcases hq with rfl | rfl <;> simp [readString, List.isPrefixOf, hnot]

private theorem not_quotes_prefix {q : Char} {text : List Char} (htext : ∀ c ∈ text.head?, c ≠ q)
    (hrest : ∀ c ∈ rest.head?, c ≠ q) : ¬[q, q] <+: text ++ q :: rest := by
  cases text with
  | nil =>
    rintro ⟨more, heq⟩
    obtain ⟨-, heq⟩ := List.cons.inj heq
    exact hrest q (by rw [← heq]; rfl) rfl
  | cons c text =>
    rw [List.cons_append, List.cons_prefix_cons]
    exact fun hprefix => htext c rfl hprefix.1.symm

/-- In one line no quote is written as it is. -/
theorem head?_escapeFrom_line (run : Nat) (cs : List Char) :
    ∀ c ∈ (escapeFrom false run cs).head?, c ≠ '"' := by
  cases cs with
  | nil => simp [escapeFrom]
  | cons c cs =>
    obtain ⟨next, first, hwritten, heq⟩ := exists_written false run c cs
    rw [heq]
    cases hwritten with
    | quote hmultiline => cases hmultiline
    | plain hquote => simpa using hquote
    | escaped => simp

/-- **A string is read back** as the text that it was written for, before anything but a quote. -/
theorem readString_quote (s : String) (hrest : ∀ c ∈ rest.head?, c ≠ '"' ∧ c ≠ '\'') :
    readString (quote s ++ rest) = some (s.toList, rest) := by
  have hbasic : ∀ c ∈ rest.head?, c ≠ '"' := fun c hc => (hrest c hc).1
  have hliteral : ∀ c ∈ rest.head?, c ≠ '\'' := fun c hc => (hrest c hc).2
  have hfits := Style.fits_choose s.toList
  dsimp only [quote]
  generalize s.toList = cs at hfits ⊢
  generalize Style.choose cs = style at hfits ⊢
  cases hfits with
  | basic =>
    have hopen := not_quotes_prefix (head?_escapeFrom_line 0 cs) hbasic
    simp only [List.cons_append, List.nil_append, List.append_assoc]
    rw [readString_line (.inl rfl) hopen, readLineString, if_pos rfl, readBasic_escapeFrom]
  | literal hquote hline hcontrol =>
    have hopen : ¬['\'', '\''] <+: cs ++ '\'' :: rest :=
      not_quotes_prefix (fun c hc hq => hquote (hq ▸ List.mem_of_mem_head? hc)) hliteral
    simp only [List.cons_append, List.nil_append, List.append_assoc]
    rw [readString_line (.inr rfl) hopen, readLineString, if_neg (by decide), if_pos rfl,
      readLiteral_append hquote hline hcontrol]
  | multilineBasic =>
    have hhead : '\n' ∉ cs → ∀ c ∈ (escapeFrom true 0 cs ++ '"' :: '"' :: '"' :: rest).head?,
        c ≠ '\n' ∧ c ≠ '\r' := fun hline => head?_escapeFrom hline (by simp)
    simp only [List.cons_append, List.nil_append, List.append_assoc]
    rw [readString_multilineBasic, dropNewline_leadingNewline hhead,
      readMultilineBasic_escapeFrom 0 cs hbasic]
  | multilineLiteral htriple hcontrol =>
    have hhead : '\n' ∉ cs → ∀ c ∈ (cs ++ '\'' :: '\'' :: '\'' :: rest).head?,
        c ≠ '\n' ∧ c ≠ '\r' := by
      intro hline
      cases cs with
      | nil => simp
      | cons c cs =>
        have hc := hcontrol c List.mem_cons_self
        rintro _ ⟨⟩
        exact ⟨fun heq => hline (by simp [heq]), fun heq => by simp [heq, isControl] at hc⟩
    simp only [List.cons_append, List.nil_append, List.append_assoc]
    rw [readString_multilineLiteral, dropNewline_leadingNewline hhead,
      readMultilineLiteral_append htriple hcontrol hliteral]

/-- A string begins with a quote. -/
theorem exists_quote_eq_cons (s : String) :
    ∃ c cs, quote s = c :: cs ∧ (c = '"' ∨ c = '\'') := by
  unfold quote
  dsimp only
  split
  · exact ⟨_, _, rfl, .inl rfl⟩
  · exact ⟨_, _, rfl, .inr rfl⟩
  · exact ⟨_, _, rfl, .inl rfl⟩
  · exact ⟨_, _, rfl, .inr rfl⟩

end Rollout.Toml
