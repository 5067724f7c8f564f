import Mathlib.Data.List.DropRight
import Mathlib.Tactic.Common

/-!
# Text

A `String` by its characters, with the few methods of `str` the program calls. A number is
written in decimal, and reads back as itself (`readNat_showNat`). Text joined by spaces falls
apart into the words of its parts (`splitWords_join`), and a part without spaces is its own
only word. A text that is read up to some character determines what is before it and what is
behind it (`append_cons_inj_of_not_mem`).
-/

namespace Rust

/-- `String` and `&str`, as characters. -/
abbrev Text := List Char

/-- `char::is_whitespace` : the Unicode property `White_Space`. -/
def isWhitespace (c : Char) : Bool :=
  let n := c.toNat
  (9 ≤ n && n ≤ 13) || n == 0x20 || n == 0x85 || n == 0xA0 || n == 0x1680 ||
    (0x2000 ≤ n && n ≤ 0x200A) || n == 0x2028 || n == 0x2029 || n == 0x202F || n == 0x205F ||
    n == 0x3000

/-- `str::trim`. -/
def trim (s : Text) : Text :=
  (s.dropWhile isWhitespace).rdropWhile isWhitespace

/-- `str::strip_prefix` followed by `unwrap_or` of the text itself. -/
def stripPrefix (start s : Text) : Text :=
  (s.dropPrefix? start).getD s

theorem stripPrefix_append (start s : Text) : stripPrefix start (start ++ s) = s := by
  rw [stripPrefix, List.dropPrefix?_append_of_beq s (beq_self_eq_true start), Option.getD_some]

theorem stripPrefix_of_not_prefix {start s : Text} (h : ¬start <+: s) :
    stripPrefix start s = s := by
  have hnone : s.dropPrefix? start = none := by
    rw [Option.eq_none_iff_forall_ne_some]
    intro t ht
    obtain ⟨p, rfl, hp⟩ := List.dropPrefix?_eq_some_iff.1 ht
    exact h (eq_of_beq hp ▸ List.prefix_append p t)
  rw [stripPrefix, hnone, Option.getD_none]

/-- `str::contains` of a text. -/
def containsText (pattern s : Text) : Bool :=
  s.tails.any (pattern.isPrefixOf ·)

/-! ## Words -/

/-- `[Text]::join`. -/
def join (separator : Text) (parts : List Text) : Text :=
  separator.intercalate parts

/-- `s.split(' ')`, without the empty words. -/
def splitWords (s : Text) : List Text :=
  (s.splitOn ' ').filter (· ≠ [])

theorem splitWords_append_space (s t : Text) :
    splitWords (s ++ ' ' :: t) = splitWords s ++ splitWords t := by
  rw [splitWords, List.splitOn_append_cons_self, List.filter_append]
  rfl

theorem splitWords_join : ∀ parts : List Text,
    splitWords (join [' '] parts) = parts.flatMap splitWords
  | [] => rfl
  | [part] => by simp [join]
  | part :: part' :: parts => by
    have htail := splitWords_join (part' :: parts)
    rw [join, List.intercalate_cons_cons, List.append_assoc, List.singleton_append,
      splitWords_append_space, List.flatMap_cons, ← htail]
    rfl

theorem splitWords_nil : splitWords [] = [] :=
  rfl

theorem splitWords_of_not_mem {s : Text} (h : ' ' ∉ s) (hne : s ≠ []) : splitWords s = [s] := by
  simp [splitWords, List.splitOn_eq_singleton h, hne]

theorem splitWords_join_words {words : List Text} (h : ∀ word ∈ words, ' ' ∉ word ∧ word ≠ []) :
    splitWords (join [' '] words) = words := by
  rw [splitWords_join]
  induction words with
  | nil => rfl
  | cons word words ih =>
    rw [List.forall_mem_cons] at h
    rw [List.flatMap_cons, splitWords_of_not_mem h.1.1 h.1.2, ih h.2]
    rfl

theorem not_mem_of_mem_splitOn {c : Char} : ∀ {s part : Text}, part ∈ s.splitOn c → c ∉ part
  | [], part, h => by
    obtain rfl : part = [] := by simpa using h
    exact List.not_mem_nil
  | x :: s, part, h => by
    rw [List.splitOn_cons_eq_if_modifyHead] at h
    split_ifs at h with hx
    · rcases List.mem_cons.1 h with rfl | h
      · exact List.not_mem_nil
      · exact not_mem_of_mem_splitOn h
    · obtain ⟨head, tail, hsplit⟩ := List.exists_cons_of_ne_nil (List.splitOn_ne_nil c s)
      have hparts : ∀ part ∈ head :: tail, c ∉ part := by
        intro part hpart
        rw [← hsplit] at hpart
        exact not_mem_of_mem_splitOn hpart
      rw [hsplit, List.modifyHead_cons] at h
      rcases List.mem_cons.1 h with rfl | h
      · have hhead := hparts head List.mem_cons_self
        have hne : c ≠ x := fun heq => hx (by simp [heq])
        simp [hhead, hne]
      · exact hparts part (List.mem_cons_of_mem _ h)

/-- Words have no spaces. -/
theorem not_mem_of_mem_splitWords {s word : Text} (h : word ∈ splitWords s) : ' ' ∉ word :=
  not_mem_of_mem_splitOn (List.mem_filter.1 h).1

/-! ## Lines and what they start with -/

theorem splitOn_append_of_not_mem {c : Char} : ∀ {a : Text}, c ∉ a → ∀ b : Text,
    (a ++ b).splitOn c = (b.splitOn c).modifyHead (a ++ ·)
  | [], _, b => by
    obtain ⟨line, lines, h⟩ := List.exists_cons_of_ne_nil (List.splitOn_ne_nil c b)
    rw [List.nil_append, h]
    rfl
  | x :: a, hc, b => by
    rw [List.mem_cons, not_or] at hc
    obtain ⟨line, lines, h⟩ := List.exists_cons_of_ne_nil (List.splitOn_ne_nil c b)
    rw [List.cons_append, List.splitOn_cons_eq_if_modifyHead, if_neg (by simp [Ne.symm hc.1]),
      splitOn_append_of_not_mem hc.2 b, h]
    rfl

/-- The first line. -/
theorem exists_splitOn_eq_cons (c : Char) (s : Text) :
    ∃ lines, s.splitOn c = s.takeWhile (· ≠ c) :: lines := by
  induction s with
  | nil => exact ⟨[], rfl⟩
  | cons x s ih =>
    obtain ⟨lines, h⟩ := ih
    rw [List.splitOn_cons_eq_if_modifyHead, h]
    by_cases hx : x = c
    · exact ⟨s.takeWhile (· ≠ c) :: lines, by simp [hx]⟩
    · exact ⟨lines, by simp [hx]⟩

theorem mem_of_mem_splitOn {c x : Char} : ∀ {s line : Text}, line ∈ s.splitOn c → x ∈ line → x ∈ s
  | [], line, h, hx => by
    obtain rfl : line = [] := by simpa using h
    exact hx
  | y :: s, line, h, hx => by
    rw [List.splitOn_cons_eq_if_modifyHead] at h
    split_ifs at h
    · rcases List.mem_cons.1 h with rfl | h
      · cases hx
      · exact List.mem_cons_of_mem _ (mem_of_mem_splitOn h hx)
    · obtain ⟨first, lines, hsplit⟩ := List.exists_cons_of_ne_nil (List.splitOn_ne_nil c s)
      rw [hsplit, List.modifyHead_cons] at h
      rcases List.mem_cons.1 h with rfl | h
      · rcases List.mem_cons.1 hx with rfl | hx
        · exact List.mem_cons_self
        · refine List.mem_cons_of_mem _ (mem_of_mem_splitOn (c := c) ?_ hx)
          rw [hsplit]
          exact List.mem_cons_self
      · refine List.mem_cons_of_mem _ (mem_of_mem_splitOn (c := c) ?_ hx)
        rw [hsplit]
        exact List.mem_cons_of_mem _ h

theorem takeWhile_takeWhile_ne {isIdent : Char → Bool} {c : Char} (hc : isIdent c = false)
    (s : Text) : (s.takeWhile (· ≠ c)).takeWhile isIdent = s.takeWhile isIdent := by
  induction s with
  | nil => rfl
  | cons x s ih =>
    by_cases hx : x = c
    · simp [hx, hc]
    · have hne : decide (x ≠ c) = true := decide_eq_true hx
      rw [List.takeWhile_cons, if_pos hne, List.takeWhile_cons, List.takeWhile_cons, ih]

theorem takeWhile_append_cons_of_neg {p : Char → Bool} {c : Char} (hc : p c = false)
    (s t : Text) : (s ++ c :: t).takeWhile p = s.takeWhile p := by
  induction s with
  | nil => exact List.takeWhile_cons_of_neg (by simp [hc])
  | cons x s ih => rw [List.cons_append, List.takeWhile_cons, List.takeWhile_cons, ih]

/-! ## Before and behind an element -/

/-- What is before the first element of a kind is told apart from it and from what follows. -/
theorem append_cons_inj_of_first {α : Type} {p : α → Prop} {a b s t : List α} {x y : α}
    (ha : ∀ z ∈ a, ¬p z) (hb : ∀ z ∈ b, ¬p z) (hx : p x) (hy : p y)
    (h : a ++ x :: s = b ++ y :: t) : a = b ∧ x = y ∧ s = t := by
  rcases List.append_eq_append_iff.1 h with ⟨mid, rfl, hmid⟩ | ⟨mid, rfl, hmid⟩
  · rcases mid with _ | ⟨z, mid⟩
    · obtain ⟨rfl, rfl⟩ := List.cons.inj hmid
      exact ⟨(List.append_nil a).symm, rfl, rfl⟩
    · obtain ⟨rfl, -⟩ := List.cons.inj hmid
      exact absurd hx (hb x (List.mem_append_right a List.mem_cons_self))
  · rcases mid with _ | ⟨z, mid⟩
    · obtain ⟨rfl, rfl⟩ := List.cons.inj hmid
      exact ⟨List.append_nil b, rfl, rfl⟩
    · obtain ⟨rfl, -⟩ := List.cons.inj hmid
      exact absurd hy (ha y (List.mem_append_right b List.mem_cons_self))

/-- What is before the first `c` is told apart from what follows it. -/
theorem append_cons_inj_of_not_mem {c : Char} {a b s t : Text} (ha : c ∉ a) (hb : c ∉ b)
    (h : a ++ c :: s = b ++ c :: t) : a = b ∧ s = t := by
  have hne : ∀ {part : Text}, c ∉ part → ∀ z ∈ part, ¬z = c :=
    fun hpart z hz heq => hpart (heq ▸ hz)
  obtain ⟨hab, -, hst⟩ := append_cons_inj_of_first (hne ha) (hne hb) rfl rfl h
  exact ⟨hab, hst⟩

/-- What follows the last `c` is told apart from what is before it. -/
theorem append_cons_inj {c : Char} {a b s t : Text} (hs : c ∉ s) (ht : c ∉ t)
    (h : a ++ c :: s = b ++ c :: t) : a = b ∧ s = t := by
  have hreverse : s.reverse ++ c :: a.reverse = t.reverse ++ c :: b.reverse := by
    simpa using congrArg List.reverse h
  obtain ⟨hst, hab⟩ := append_cons_inj_of_not_mem (List.mem_reverse.not.2 hs)
    (List.mem_reverse.not.2 ht) hreverse
  exact ⟨List.reverse_injective hab, List.reverse_injective hst⟩

/-- Where a word does not have its first character again, a text that ends in front of it and
does not contain it is told apart from a longer one only if that contains it. -/
theorem infix_of_append_eq {c : Char} {word a s t : Text} (hc : c ∉ word) {x : Char} {mid : Text}
    (h : c :: word ++ s = x :: mid ++ (c :: word ++ t)) : c :: word <:+: a ++ x :: mid := by
  have htail : word ++ s = mid ++ (c :: word ++ t) := (List.cons.inj h).2
  obtain rfl : c = x := (List.cons.inj h).1
  refine List.IsInfix.trans ?_ (List.suffix_append a (c :: mid)).isInfix
  rcases List.append_eq_append_iff.1 htail with ⟨rest, rfl, -⟩ | ⟨rest, rfl, hrest⟩
  · exact (List.prefix_append (c :: word) rest).isInfix
  · rcases rest with _ | ⟨y, rest⟩
    · exact congrArg (c :: ·) (List.append_nil mid) ▸ List.infix_rfl
    · obtain ⟨rfl, -⟩ := List.cons.inj hrest
      exact absurd (List.mem_append_right mid List.mem_cons_self) hc

/-- What is before the first occurrence of a word is told apart from what follows it, if the
word does not have its first character again. -/
theorem append_word_inj {c : Char} {word a b s t : Text} (hc : c ∉ word)
    (ha : ¬c :: word <:+: a) (hb : ¬c :: word <:+: b)
    (h : a ++ (c :: word ++ s) = b ++ (c :: word ++ t)) : a = b ∧ s = t := by
  rcases List.append_eq_append_iff.1 h with ⟨mid, rfl, hmid⟩ | ⟨mid, rfl, hmid⟩
  · rcases mid with _ | ⟨x, mid⟩
    · exact ⟨(List.append_nil a).symm, List.append_cancel_left hmid⟩
    · exact absurd (infix_of_append_eq hc hmid) hb
  · rcases mid with _ | ⟨x, mid⟩
    · exact ⟨List.append_nil b, (List.append_cancel_left hmid).symm⟩
    · exact absurd (infix_of_append_eq hc hmid) ha

/-! ## Decimal numbers -/

/-- A number in decimal. -/
def showNat (n : ℕ) : Text :=
  Nat.toDigits 10 n

/-- The number that decimal digits spell, at least one of them. -/
def readNat (s : Text) : Option ℕ :=
  if s ≠ [] ∧ s.all Char.isDigit then some (Nat.ofDigitChars 10 s 0) else none

theorem isDigit_of_mem_showNat {n : ℕ} {c : Char} (h : c ∈ showNat n) : c.isDigit :=
  Nat.isDigit_of_mem_toDigits (by omega) (by omega) h

@[simp] theorem readNat_showNat (n : ℕ) : readNat (showNat n) = some n := by
  have hdigits : (showNat n).all Char.isDigit :=
    List.all_eq_true.2 fun c hc => isDigit_of_mem_showNat hc
  rw [readNat, if_pos ⟨Nat.toDigits_ne_nil, hdigits⟩, showNat, Nat.ofDigitChars_ten_toDigits]

theorem showNat_injective : Function.Injective showNat := by
  intro n m h
  have hread := congrArg readNat h
  rw [readNat_showNat, readNat_showNat] at hread
  exact Option.some.inj hread

/-- A name and a number behind a separator are told apart. -/
theorem append_cons_showNat_inj {c : Char} (hc : ¬c.isDigit) {a b : Text} {n m : ℕ}
    (h : a ++ c :: showNat n = b ++ c :: showNat m) : a = b ∧ n = m := by
  have hnot : ∀ k, c ∉ showNat k := fun k hmem => hc (isDigit_of_mem_showNat hmem)
  obtain ⟨hab, hnm⟩ := append_cons_inj (hnot n) (hnot m) h
  exact ⟨hab, showNat_injective hnm⟩

end Rust
