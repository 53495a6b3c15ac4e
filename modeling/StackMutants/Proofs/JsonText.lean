import StackMutants.Json.Printer
import StackMutants.Json.Reader
import Mathlib.Data.List.Basic
import Mathlib.Data.List.TakeWhile

/-!
# Proofs.JsonText — a pretty text is read as the value that was written

A pretty text is cut into the tokens of the value (`scannedAs_prettyAt`): a string comes back whatever
characters it has (`readString?_flatMap_escapeChar`), an integer whatever its size (`readNumber?_writeInt`),
and line breaks and indents are no tokens.  From the tokens the stack machine builds the value again
(`State.run_tokens`).  Hence a value without decimal literals, all strings of which denote texts, comes back
as it was (`read?_pretty`).
-/

namespace StackMutants

/-! ## Digits -/

namespace Literal

theorem digit?_of_isDigit {c : Char} (h : c.isDigit = true) : digit? 10 c = some (c.toNat - 48) := by
  have hle : '0' ≤ c ∧ c ≤ '9' := by
    simpa [Char.isDigit, Char.le_def] using h
  have hlt : c.toNat - 48 < 10 := by
    have hnine : c.toNat ≤ 57 := hle.2
    omega
  unfold digit?
  rw [if_pos hle]
  exact if_pos hlt

theorem spanDigits_of_isDigit {cs : List Char} (h : ∀ c ∈ cs, c.isDigit = true) :
    spanDigits cs = (cs.map (·.toNat - 48), []) := by
  have hall : ∀ c ∈ cs, isDigit c = true := by
    intro c hc
    unfold isDigit
    rw [digit?_of_isDigit (h c hc)]
    rfl
  unfold spanDigits
  rw [List.takeWhile_eq_self_iff.mpr hall, List.dropWhile_eq_nil_iff.mpr hall, ← List.filterMap_eq_map,
    List.filterMap_congr fun c hc => digit?_of_isDigit (h c hc)]
  exact rfl

/-- The decimal digits of a number. -/
def decimals (n : Nat) : List Nat := (Nat.toDigits 10 n).map (·.toNat - 48)

theorem isDigit_of_mem_toDigits {n : Nat} : ∀ c ∈ Nat.toDigits 10 n, c.isDigit = true :=
  fun _ hc => Nat.isDigit_of_mem_toDigits (by decide) (by decide) hc

theorem spanDigits_toDigits (n : Nat) : spanDigits (Nat.toDigits 10 n) = (decimals n, []) :=
  spanDigits_of_isDigit isDigit_of_mem_toDigits

theorem ofDigits_decimals (n : Nat) : ofDigits 10 (decimals n) = n := by
  unfold ofDigits decimals
  rw [List.foldl_map]
  exact Nat.ofDigitChars_toDigits (by decide) (by decide)

theorem decimals_ne_nil (n : Nat) : decimals n ≠ [] := by
  unfold decimals
  rw [Ne, List.map_eq_nil_iff]
  exact Nat.toDigits_ne_nil

theorem decimals_of_lt {n : Nat} (h : n < 10) : decimals n = [n] := by
  unfold decimals
  rw [Nat.toDigits_of_lt_base h, List.map_singleton, Nat.toNat_digitChar_of_lt_ten h]
  exact congrArg (fun d => [d]) (Nat.add_sub_cancel_left 48 n)

theorem decimals_of_le {n : Nat} (h : 10 ≤ n) : decimals n = decimals (n / 10) ++ [n % 10] := by
  rw [← decimals_of_lt (Nat.mod_lt n (by decide))]
  unfold decimals
  rw [Nat.toDigits_of_base_le (by decide) h, Nat.toDigits_of_lt_base (Nat.mod_lt n (by decide)),
    List.map_append]

/-- Only zero is written with a zero in front. -/
theorem head?_decimals {n : Nat} (h : 0 < n) : (decimals n).head? ≠ some 0 := by
  induction n using Nat.strongRecOn with
  | ind n ih =>
    by_cases hsmall : n < 10
    · rw [decimals_of_lt hsmall, List.head?_cons]
      exact fun hzero => h.ne' (Option.some.inj hzero)
    · rw [decimals_of_le (by omega), List.head?_append_of_ne_nil _ (decimals_ne_nil (n / 10))]
      exact ih (n / 10) (by omega) (by omega)

theorem decimals_noIdleZero (n : Nat) :
    ((decimals n).head? == some 0 && (decimals n).length != 1) = false := by
  rcases Nat.eq_zero_or_pos n with rfl | hpos
  · rfl
  · rw [beq_eq_false_iff_ne.mpr (head?_decimals hpos), Bool.false_and]

end Literal

namespace Json

/-! ## Integers -/

theorem readNumber?_writeInt (n : Int) : readNumber? (writeInt n) = some (.int n) := by
  have hwhole : (Literal.decimals n.natAbs).isEmpty = false :=
    List.isEmpty_eq_false_iff.mpr (Literal.decimals_ne_nil _)
  have hlead := Literal.decimals_noIdleZero n.natAbs
  have hvalue := Literal.ofDigits_decimals n.natAbs
  unfold writeInt
  split
  case isTrue hneg =>
    -- a minus sign before the digits; it does not stand before a zero
    have hzero : (Literal.decimals n.natAbs == [0]) = false := by
      refine beq_eq_false_iff_ne.mpr fun h => ?_
      exact Literal.head?_decimals (Int.natAbs_pos.mpr (Int.ne_of_lt hneg)) (congrArg List.head? h)
    have hn : -(n.natAbs : Int) = n := (Int.eq_neg_natAbs_of_nonpos (Int.le_of_lt hneg)).symm
    unfold readNumber?
    simp only [Literal.spanDigits_toDigits, hwhole, hlead, hzero, hvalue]
    exact congrArg (fun n => some (int n)) hn
  case isFalse hneg =>
    have hn : (n.natAbs : Int) = n := Int.natAbs_of_nonneg (Int.not_lt.mp hneg)
    unfold readNumber?
    dsimp only
    split
    next cs hcs =>
      have hminus : '-' ∈ Nat.toDigits 10 n.natAbs := hcs ▸ List.mem_cons_self
      exact absurd (Literal.isDigit_of_mem_toDigits _ hminus) (by decide)
    next =>
      simp only [Literal.spanDigits_toDigits, hwhole, hlead, hvalue]
      exact congrArg (fun n => some (int n)) hn

theorem writeInt_ne_nil (n : Int) : writeInt n ≠ [] := by
  unfold writeInt
  split
  · exact List.cons_ne_nil _ _
  · exact Nat.toDigits_ne_nil

theorem mem_writeInt {n : Int} {c : Char} (h : c ∈ writeInt n) : c = '-' ∨ c.isDigit = true := by
  unfold writeInt at h
  split at h
  · exact (List.mem_cons.mp h).imp id (Literal.isDigit_of_mem_toDigits c)
  · exact .inr (Literal.isDigit_of_mem_toDigits c h)

theorem readWord?_writeInt (n : Int) : readWord? (writeInt n) = some (.int n) := by
  have hno : ∀ {c : Char} {cs : List Char}, c ≠ '-' → c.isDigit = false → writeInt n ≠ c :: cs := by
    intro c cs hminus hdigit h
    rcases mem_writeInt (h ▸ List.mem_cons_self) with hc | hc
    · exact hminus hc
    · rw [hdigit] at hc
      cases hc
  unfold readWord?
  rw [if_neg (hno (by decide) (by decide)), if_neg (hno (by decide) (by decide)),
    if_neg (hno (by decide) (by decide))]
  exact readNumber?_writeInt n

/-! ## Strings -/

theorem readString?_plain {c : Char} (hslash : c ≠ '\\') (hc : 0x20 ≤ c.toNat) (rest : List Char) :
    readString? (c :: rest) = (readString? rest).map (·.map (c :: ·)) := by
  rw [readString?]
  · rw [if_neg (not_or.mpr ⟨hslash, Nat.not_lt.mpr hc⟩)]
  all_goals grind

theorem readString?_short {e c : Char} (h : shortEscape? e = some c) (rest : List Char) :
    readString? ('\\' :: e :: rest) = (readString? rest).map (·.map (c :: ·)) := by
  have hu : e ≠ 'u' := by
    rintro rfl
    cases h
  rw [readString?]
  · rw [h]
    cases readString? rest <;> rfl
  all_goals grind

/-- A character that is written as its code point; it is not half of a surrogate pair. -/
theorem readString?_hex {a b c d : Char} {n : Nat} (h : hex4? a b c d = some n)
    (hhigh : isHighSurrogate n = false) (hlow : isLowSurrogate n = false) (rest : List Char) :
    readString? ('\\' :: 'u' :: a :: b :: c :: d :: rest) =
      (readString? rest).map (·.map (Char.ofNat n :: ·)) := by
  rw [readString?.eq_def]
  split
  case h_2 a b c d e f g k rest heq =>
    -- another code point follows, and is read on its own
    cases heq
    simp only [h, hhigh, hlow, Option.bind_eq_bind, Option.bind_some]
    cases readString? ('\\' :: 'u' :: e :: f :: g :: k :: rest) <;> rfl
  case h_3 a b c d rest _ heq =>
    cases heq
    simp only [h, hhigh, hlow, Option.bind_eq_bind, Option.bind_some]
    cases readString? rest <;> rfl
  all_goals grind

theorem hex4?_hexDigit : ∀ n < 0x20,
    hex4? '0' '0' (hexDigit (n / 16)) (hexDigit (n % 16)) = some n := by decide

/-- What may stand in a string in place of a character.  None of it ends the string, and no backslash of it
escapes what comes behind. -/
inductive EscapedAs (c : Char) : List Char → Prop where
  | plain : c ≠ '\\' → c ≠ '"' → 0x20 ≤ c.toNat → EscapedAs c [c]
  | short {e : Char} : shortEscape? e = some c → EscapedAs c ['\\', e]
  | hex {a b : Char} : hex4? '0' '0' a b = some c.toNat → c.toNat < 0x20 → a ≠ '"' → b ≠ '"' →
      a ≠ '\\' → b ≠ '\\' → EscapedAs c ['\\', 'u', '0', '0', a, b]

theorem hexDigit_ne : ∀ n < 16, hexDigit n ≠ '"' ∧ hexDigit n ≠ '\\' := by decide

theorem escapedAs_escapeChar (c : Char) : EscapedAs c (escapeChar c) := by
  unfold escapeChar
  split
  case h_8 hquote hslash _ _ _ _ _ =>
    split
    case isTrue hc =>
      have ha := hexDigit_ne (c.toNat / 16) (by omega)
      have hb := hexDigit_ne (c.toNat % 16) (by omega)
      exact .hex (hex4?_hexDigit _ hc) hc ha.1 hb.1 ha.2 hb.2
    case isFalse hc => exact .plain hslash hquote (Nat.not_lt.mp hc)
  all_goals exact .short rfl

theorem EscapedAs.readString?_append {c : Char} {cs : List Char} (h : EscapedAs c cs) (rest : List Char) :
    readString? (cs ++ rest) = (readString? rest).map (·.map (c :: ·)) := by
  cases h with
  | plain hslash _ hc => exact readString?_plain hslash hc rest
  | short h => exact readString?_short h rest
  | hex h hc _ _ _ _ =>
    have hhigh : isHighSurrogate c.toNat = false := by
      unfold isHighSurrogate
      rw [decide_eq_false (by omega), Bool.false_and]
    have hlow : isLowSurrogate c.toNat = false := by
      unfold isLowSurrogate
      rw [decide_eq_false (by omega), Bool.false_and]
    have hread := readString?_hex h hhigh hlow rest
    rwa [Char.ofNat_toNat] at hread

theorem readString?_flatMap_escapeChar (cs : List Char) :
    readString? (cs.flatMap escapeChar) = some (some cs) := by
  induction cs with
  | nil => rfl
  | cons c cs ih =>
    rw [List.flatMap_cons, (escapedAs_escapeChar c).readString?_append, ih]
    rfl

/-! ## Strings in a text -/

theorem scan?_quoted {c : Char} (hslash : c ≠ '\\') (hquote : c ≠ '"') (read cs : List Char) :
    scan? (.quoted read false) (c :: cs) = scan? (.quoted (c :: read) false) cs := by
  rw [scan?, if_neg hquote, decide_eq_false hslash]

/-- A scan in a string takes what stands for a character as a whole. -/
theorem EscapedAs.scan?_append {c : Char} {cs : List Char} (h : EscapedAs c cs) (read rest : List Char) :
    scan? (.quoted read false) (cs ++ rest) = scan? (.quoted (cs.reverse ++ read) false) rest := by
  cases h with
  | plain hslash hquote _ => exact scan?_quoted hslash hquote read rest
  | short h => rfl
  | @hex a b _ _ ha hb ha' hb' =>
    calc scan? (.quoted read false) ('\\' :: 'u' :: '0' :: '0' :: a :: b :: rest)
      _ = scan? (.quoted ('0' :: '0' :: 'u' :: '\\' :: read) false) (a :: b :: rest) := rfl
      _ = scan? (.quoted (b :: a :: '0' :: '0' :: 'u' :: '\\' :: read) false) rest := by
        rw [scan?_quoted ha' ha, scan?_quoted hb' hb]

theorem scan?_flatMap_escapeChar (cs read rest : List Char) :
    scan? (.quoted read false) (cs.flatMap escapeChar ++ rest) =
      scan? (.quoted ((cs.flatMap escapeChar).reverse ++ read) false) rest := by
  induction cs generalizing read with
  | nil => rfl
  | cons c cs ih =>
    rw [List.flatMap_cons, List.append_assoc, (escapedAs_escapeChar c).scan?_append, ih, List.reverse_append,
      List.append_assoc]

theorem scan?_writeString (s : String) (rest : List Char) :
    scan? .nothing (writeString (some s) ++ rest) =
      (scan? .nothing rest).map (Token.string (some s) :: ·) := by
  have hread : readString? (s.toList.flatMap escapeChar) = some (some s.toList) :=
    readString?_flatMap_escapeChar s.toList
  calc scan? .nothing (writeString (some s) ++ rest)
    _ = scan? (.quoted [] false) (s.toList.flatMap escapeChar ++ '"' :: rest) := by
      unfold writeString
      rw [List.cons_append, List.append_assoc]
      rfl
    _ = scan? (.quoted (s.toList.flatMap escapeChar).reverse false) ('"' :: rest) := by
      rw [scan?_flatMap_escapeChar, List.append_nil]
    _ = (scan? .nothing rest).map (Token.string (some s) :: ·) := by
      rw [scan?, if_pos rfl, List.reverse_reverse, hread]
      show (scan? .nothing rest).bind (fun ts => some (.string (some (String.ofList s.toList)) :: ts)) = _
      rw [String.ofList_toList]
      cases scan? .nothing rest <;> rfl

/-! ## Words in a text -/

/-- Whether the character may be part of a word. -/
def isWordChar (c : Char) : Bool := !isBlank c && c ≠ '"' && (punctuation? c).isNone

/-- Whether a word ends where the text begins. -/
def EndsWord (rest : List Char) : Prop :=
  ∀ c ∈ rest.head?, isBlank c = true ∨ (punctuation? c).isSome = true

theorem isWordChar_iff {c : Char} :
    isWordChar c = true ↔ isBlank c = false ∧ c ≠ '"' ∧ punctuation? c = none := by
  unfold isWordChar
  simp only [Bool.and_eq_true, Bool.not_eq_true', decide_eq_true_eq, Option.isNone_iff_eq_none, and_assoc]

theorem scan?_word_append {word : List Char} (h : ∀ c ∈ word, isWordChar c = true) (read rest : List Char) :
    scan? (.word read) (word ++ rest) = scan? (.word (word.reverse ++ read)) rest := by
  induction word generalizing read with
  | nil => rfl
  | cons c word ih =>
    obtain ⟨hblank, hquote, hpunctuation⟩ := isWordChar_iff.mp (h c List.mem_cons_self)
    rw [List.cons_append, scan?, hblank, if_neg Bool.false_ne_true, if_neg hquote, hpunctuation,
      List.reverse_cons, List.append_assoc]
    exact ih (fun d hd => h d (List.mem_cons_of_mem c hd)) (c :: read)

theorem scan?_word_end {read rest : List Char} {v : Json} (hrest : EndsWord rest)
    (hread : readWord? read.reverse = some v) :
    scan? (.word read) rest = (scan? .nothing rest).map (Token.scalar v :: ·) := by
  cases rest with
  | nil =>
    unfold scan?
    rw [hread]
    rfl
  | cons c cs =>
    cases hblank : isBlank c with
    | true =>
      rw [scan?, scan?, hblank, if_pos rfl, if_pos rfl, hread]
      cases scan? .nothing cs <;> rfl
    | false =>
      rcases hrest c rfl with hc | hc
      · rw [hblank] at hc
        cases hc
      · obtain ⟨t, ht⟩ := Option.isSome_iff_exists.mp hc
        have hquote : c ≠ '"' := by
          rintro rfl
          cases ht
        rw [scan?, scan?, hblank, if_neg Bool.false_ne_true, if_neg Bool.false_ne_true, if_neg hquote,
          if_neg hquote, ht, hread]
        cases scan? .nothing cs <;> rfl

theorem scan?_word {word rest : List Char} {v : Json} (hne : word ≠ [])
    (hword : word.all isWordChar = true) (hread : readWord? word = some v) (hrest : EndsWord rest) :
    scan? .nothing (word ++ rest) = (scan? .nothing rest).map (Token.scalar v :: ·) := by
  cases word with
  | nil => exact absurd rfl hne
  | cons c word =>
    have hall := List.all_eq_true.mp hword
    obtain ⟨hblank, hquote, hpunctuation⟩ := isWordChar_iff.mp (hall c List.mem_cons_self)
    rw [List.cons_append, scan?, hblank, if_neg Bool.false_ne_true, if_neg hquote, hpunctuation]
    show scan? (.word [c]) (word ++ rest) = _
    rw [scan?_word_append fun d hd => hall d (List.mem_cons_of_mem c hd)]
    refine scan?_word_end hrest ?_
    rwa [← List.reverse_cons, List.reverse_reverse]

theorem isWordChar_of_isDigit {c : Char} (h : c.isDigit = true) : isWordChar c = true := by
  have hne : ∀ d : Char, d.isDigit = false → c ≠ d := by
    rintro d hd rfl
    rw [hd] at h
    cases h
  have hblank : isBlank c = false := by
    unfold isBlank
    rw [decide_eq_false (hne ' ' rfl), decide_eq_false (hne '\t' rfl), decide_eq_false (hne '\n' rfl),
      decide_eq_false (hne '\r' rfl)]
    rfl
  refine isWordChar_iff.mpr ⟨hblank, hne '"' rfl, ?_⟩
  unfold punctuation?
  split
  case h_7 => rfl
  all_goals cases h

theorem all_isWordChar_writeInt (n : Int) : (writeInt n).all isWordChar = true := by
  refine List.all_eq_true.mpr fun c hc => ?_
  rcases mem_writeInt hc with rfl | hc
  · rfl
  · exact isWordChar_of_isDigit hc

/-! ## Tokens of a value -/

theorem scan?_punctuation {c : Char} {t : Token} (h : punctuation? c = some t) (cs : List Char) :
    scan? .nothing (c :: cs) = (scan? .nothing cs).map (t :: ·) := by
  have hword : isBlank c = false ∧ c ≠ '"' := by
    unfold punctuation? at h
    split at h
    case h_7 => cases h
    all_goals exact ⟨rfl, by decide⟩
  rw [scan?, hword.1, if_neg Bool.false_ne_true, if_neg hword.2, h]

theorem scan?_newline (depth : Nat) (rest : List Char) :
    scan? .nothing (newline depth ++ rest) = scan? .nothing rest := by
  unfold newline
  show scan? .nothing (List.replicate (2 * depth) ' ' ++ rest) = _
  generalize 2 * depth = blanks
  induction blanks with
  | zero => rfl
  | succ n ih => exact ih

theorem endsWord_newline (depth : Nat) (text rest : List Char) :
    EndsWord (newline depth ++ text ++ rest) := by
  rintro c ⟨⟩
  exact .inl rfl

theorem endsWord_cons {c : Char} {t : Token} (h : punctuation? c = some t) (cs : List Char) :
    EndsWord (c :: cs) := by
  rintro d ⟨⟩
  right
  rw [h]
  rfl

mutual

/-- The tokens of a value. -/
def tokens : Json → List Token
  | .array items => .openArray :: (tokensOfItems items ++ [.closeArray])
  | .object fields => .openObject :: (tokensOfFields fields ++ [.closeObject])
  | .string s => [.string s]
  | v => [.scalar v]

def tokensOfItems : List Json → List Token
  | [] => []
  | [v] => v.tokens
  | v :: vs => v.tokens ++ .comma :: tokensOfItems vs

def tokensOfFields : List (Option String × Json) → List Token
  | [] => []
  | [f] => .string f.1 :: .colon :: f.2.tokens
  | f :: fs => .string f.1 :: .colon :: (f.2.tokens ++ .comma :: tokensOfFields fs)

end

/-- Whether a value is no decimal literal and no string without a text, what it holds aside. -/
def isPlain : Json → Bool
  | .real _ => false
  | .string s => s.isSome
  | _ => true

/-- Whether the text is scanned as the tokens, wherever a word may end behind it.  Without that a number would
go on in what comes behind. -/
def ScannedAs (text : List Char) (ts : List Token) : Prop :=
  ∀ rest, EndsWord rest → scan? .nothing (text ++ rest) = (scan? .nothing rest).map (ts ++ ·)

namespace ScannedAs

variable {text text' : List Char} {ts ts' : List Token}

theorem nil : ScannedAs [] [] := fun _ _ => (Option.map_id' ..).symm

theorem word {v : Json} (hne : text ≠ []) (hword : text.all isWordChar = true)
    (hread : readWord? text = some v) : ScannedAs text [.scalar v] :=
  fun _ hrest => scan?_word hne hword hread hrest

theorem string (s : String) : ScannedAs (writeString (some s)) [.string (some s)] :=
  fun rest _ => scan?_writeString s rest

theorem punctuation {c : Char} {t : Token} (hc : punctuation? c = some t) (h : ScannedAs text ts) :
    ScannedAs (c :: text) (t :: ts) := by
  intro rest hrest
  rw [List.cons_append, scan?_punctuation hc, h rest hrest]
  cases scan? .nothing rest <;> rfl

theorem blank (h : ScannedAs text ts) : ScannedAs (' ' :: text) ts := h

theorem newline (depth : Nat) (h : ScannedAs text ts) : ScannedAs (newline depth ++ text) ts := by
  intro rest hrest
  rw [List.append_assoc, scan?_newline, h rest hrest]

theorem append (h : ScannedAs text ts) (h' : ScannedAs text' ts')
    (hends : ∀ rest, EndsWord (text' ++ rest)) : ScannedAs (text ++ text') (ts ++ ts') := by
  intro rest hrest
  rw [List.append_assoc, h _ (hends rest), h' rest hrest]
  cases scan? .nothing rest with
  | none => rfl
  | some _ => exact congrArg some (List.append_assoc ..).symm

theorem field (depth : Nat) (name : String) (h : ScannedAs text ts) :
    ScannedAs (Json.newline depth ++ writeString (some name) ++ ':' :: ' ' :: text)
      (.string (some name) :: .colon :: ts) := by
  have hvalue : ScannedAs (':' :: ' ' :: text) (.colon :: ts) := .punctuation rfl h.blank
  rw [List.append_assoc]
  exact .newline depth ((ScannedAs.string name).append hvalue fun rest => endsWord_cons rfl _)

end ScannedAs

theorem everywhereInItems_cons {p : Json → Bool} {v : Json} {vs : List Json}
    (h : everywhereInItems p (v :: vs) = true) :
    v.everywhere p = true ∧ everywhereInItems p vs = true := by
  unfold everywhereInItems at h
  exact Bool.and_eq_true_iff.mp h

theorem everywhereInFields_cons {p : Json → Bool} {name : Option String} {v : Json}
    {fs : List (Option String × Json)} (h : everywhereInFields p ((name, v) :: fs) = true) :
    (∃ text, name = some text) ∧ v.everywhere p = true ∧ everywhereInFields p fs = true := by
  unfold everywhereInFields at h
  obtain ⟨hfirst, hrest⟩ := Bool.and_eq_true_iff.mp h
  obtain ⟨hname, hvalue⟩ := Bool.and_eq_true_iff.mp hfirst
  exact ⟨Option.isSome_iff_exists.mp hname, hvalue, hrest⟩

mutual

theorem scannedAs_prettyAt (depth : Nat) :
    ∀ v : Json, v.everywhere isPlain = true → ScannedAs (prettyAt depth v) v.tokens
  | .null, _ => (.word (List.cons_ne_nil _ _) rfl rfl : ScannedAs ['n', 'u', 'l', 'l'] [.scalar .null])
  | .bool true, _ =>
    (.word (List.cons_ne_nil _ _) rfl rfl : ScannedAs ['t', 'r', 'u', 'e'] [.scalar (.bool true)])
  | .bool false, _ =>
    (.word (List.cons_ne_nil _ _) rfl rfl : ScannedAs ['f', 'a', 'l', 's', 'e'] [.scalar (.bool false)])
  | .int n, _ =>
    .word (writeInt_ne_nil n) (all_isWordChar_writeInt n) (readWord?_writeInt n)
  | .real _, h => nomatch h
  | .string none, h => nomatch h
  | .string (some s), _ => .string s
  | .array [], _ => .punctuation rfl (.punctuation rfl .nil)
  | .array (v :: vs), h => by
    have hitems := scannedAs_prettyItems (depth + 1) (v :: vs) h
    have hclose : ScannedAs (newline depth ++ [']']) [.closeArray] := .newline depth (.punctuation rfl .nil)
    refine .punctuation rfl ?_
    rw [List.append_assoc]
    exact hitems.append hclose (endsWord_newline depth _)
  | .object [], _ => .punctuation rfl (.punctuation rfl .nil)
  | .object (f :: fs), h => by
    have hfields := scannedAs_prettyFields (depth + 1) (f :: fs) h
    have hclose : ScannedAs (newline depth ++ ['}']) [.closeObject] := .newline depth (.punctuation rfl .nil)
    refine .punctuation rfl ?_
    rw [List.append_assoc]
    exact hfields.append hclose (endsWord_newline depth _)

theorem scannedAs_prettyItems (depth : Nat) :
    ∀ vs : List Json, everywhereInItems isPlain vs = true →
      ScannedAs (prettyItems depth vs) (tokensOfItems vs)
  | [], _ => .nil
  | [v], h => .newline depth (scannedAs_prettyAt depth v (everywhereInItems_cons h).1)
  | v :: w :: vs, h => by
    obtain ⟨hv, hrest⟩ := everywhereInItems_cons h
    have hitem := ScannedAs.newline depth (scannedAs_prettyAt depth v hv)
    have hitems := scannedAs_prettyItems depth (w :: vs) hrest
    exact hitem.append (.punctuation rfl hitems) fun rest => endsWord_cons rfl _

theorem scannedAs_prettyFields (depth : Nat) :
    ∀ fs : List (Option String × Json), everywhereInFields isPlain fs = true →
      ScannedAs (prettyFields depth fs) (tokensOfFields fs)
  | [], _ => .nil
  | [(name, v)], h => by
    obtain ⟨⟨name, rfl⟩, hv, -⟩ := everywhereInFields_cons h
    exact .field depth name (scannedAs_prettyAt depth v hv)
  | (name, v) :: f :: fs, h => by
    obtain ⟨⟨name, rfl⟩, hv, hrest⟩ := everywhereInFields_cons h
    have hfields := scannedAs_prettyFields depth (f :: fs) hrest
    have hcomma : ScannedAs (',' :: prettyFields depth (f :: fs)) (.comma :: tokensOfFields (f :: fs)) :=
      .punctuation rfl hfields
    have hvalue := (scannedAs_prettyAt depth v hv).append hcomma fun rest => endsWord_cons rfl _
    exact .field depth name hvalue

end

/-- Whether there are only plain values in a value. -/
def Plain (v : Json) : Prop := v.everywhere isPlain = true

theorem tokens?_pretty {v : Json} (h : v.Plain) : tokens? v.pretty = some v.tokens := by
  have hscan := scannedAs_prettyAt 0 v h [] nofun
  rw [List.append_nil] at hscan
  exact hscan.trans (congrArg some (List.append_nil _))

/-! ## The stack machine -/

mutual

/-- The machine takes the tokens of a value and stands behind the value then. -/
theorem State.run_tokens (mayClose : Bool) (stack : List Frame) (ts : List Token) :
    ∀ v : Json, (State.beforeValue mayClose stack).run (v.tokens ++ ts) = (State.afterValue v stack).run ts
  | .null | .bool _ | .int _ | .real _ | .string _ => rfl
  | .array [] => rfl
  | .array (v :: vs) => by
    have hitems := State.run_tokensOfItems true [] stack ts (v :: vs) (List.cons_ne_nil v vs)
    unfold tokens
    rw [List.cons_append, List.append_assoc]
    exact hitems
  | .object [] => rfl
  | .object (f :: fs) => by
    have hfields := State.run_tokensOfFields true [] stack ts (f :: fs) (List.cons_ne_nil f fs)
    unfold tokens
    rw [List.cons_append, List.append_assoc]
    exact hfields

/-- `before` are the items that have been read, in reverse. -/
theorem State.run_tokensOfItems (mayClose : Bool) (before : List Json) (stack : List Frame)
    (ts : List Token) :
    ∀ vs : List Json, vs ≠ [] →
      (State.beforeValue mayClose (.array before :: stack)).run (tokensOfItems vs ++ ([.closeArray] ++ ts)) =
        (State.afterValue (.array (before.reverse ++ vs)) stack).run ts
  | [], h => absurd rfl h
  | [v], _ => by
    unfold tokensOfItems
    rw [State.run_tokens, ← List.reverse_cons]
    rfl
  | v :: w :: vs, _ => by
    have hitems := State.run_tokensOfItems false (v :: before) stack ts (w :: vs) (List.cons_ne_nil w vs)
    rw [List.reverse_cons, List.append_assoc] at hitems
    unfold tokensOfItems
    rw [List.append_assoc, State.run_tokens]
    exact hitems

theorem State.run_tokensOfFields (mayClose : Bool) (before : List (Option String × Json))
    (stack : List Frame) (ts : List Token) :
    ∀ fs : List (Option String × Json), fs ≠ [] →
      (State.beforeName mayClose before stack).run (tokensOfFields fs ++ ([.closeObject] ++ ts)) =
        (State.afterValue (.object (before.reverse ++ fs)) stack).run ts
  | [], h => absurd rfl h
  | [(name, v)], _ => by
    have hvalue := State.run_tokens false (.object before name :: stack) ([.closeObject] ++ ts) v
    rw [← List.reverse_cons]
    exact hvalue
  | (name, v) :: f :: fs, _ => by
    have hfields :=
      State.run_tokensOfFields false ((name, v) :: before) stack ts (f :: fs) (List.cons_ne_nil f fs)
    have hvalue := State.run_tokens false (.object before name :: stack)
      (.comma :: (tokensOfFields (f :: fs) ++ ([.closeObject] ++ ts))) v
    rw [List.reverse_cons, List.append_assoc] at hfields
    unfold tokensOfFields
    rw [List.cons_append, List.cons_append, List.append_assoc]
    exact hvalue.trans hfields

end

/-- **The pretty text of a value is read as the value.** -/
theorem read?_pretty {v : Json} (h : v.Plain) : read? v.pretty = some v := by
  have hrun := State.run_tokens false [] [] v
  rw [List.append_nil] at hrun
  unfold read?
  rw [tokens?_pretty h]
  show ((State.beforeValue false []).run v.tokens).bind _ = _
  rw [hrun]
  rfl

end Json

end StackMutants
