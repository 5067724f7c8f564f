import CargoStylus.Rust.Bytes

/-!
# UTF-8, read with replacement

`String::from_utf8_lossy` reads any byte string as text. A well-formed character is kept,
and each maximal run of bytes that starts a character and breaks off is read as one
replacement character, the rule `Utf8Chunks` follows. Text reads back as itself
(`fromUtf8Lossy_utf8`), and what is read ends with an ASCII text exactly if the bytes do
(`suffix_fromUtf8Lossy_iff`).
-/

namespace Rust

/-- The bytes of a text. -/
def utf8 (s : List Char) : Bytes :=
  s.flatMap String.utf8EncodeChar

theorem utf8_cons (c : Char) (s : List Char) : utf8 (c :: s) = String.utf8EncodeChar c ++ utf8 s :=
  rfl

/-- Whether `b₁` may follow `b₀`, the first byte of a character of three or four bytes. -/
def secondByte (b₀ b₁ : UInt8) : Bool :=
  if b₀ = 0xE0 then 0xA0 ≤ b₁ && b₁ ≤ 0xBF
  else if b₀ = 0xED then 0x80 ≤ b₁ && b₁ ≤ 0x9F
  else if 0xE1 ≤ b₀ && b₀ ≤ 0xEF then 0x80 ≤ b₁ && b₁ ≤ 0xBF
  else if b₀ = 0xF0 then 0x90 ≤ b₁ && b₁ ≤ 0xBF
  else if 0xF1 ≤ b₀ && b₀ ≤ 0xF3 then 0x80 ≤ b₁ && b₁ ≤ 0xBF
  else if b₀ = 0xF4 then 0x80 ≤ b₁ && b₁ ≤ 0x8F
  else false

/-- How many bytes after `b₀` belong to the character that `b₀` starts and that breaks
off before its end. -/
def brokenTail (b₀ : UInt8) : Bytes → ℕ
  | [] => 0
  | b₁ :: rest =>
    if secondByte b₀ b₁ then
      match rest with
      | [] => 1
      | b₂ :: _ => if 0xF0 ≤ b₀ && 0x80 ≤ b₂ && b₂ ≤ 0xBF then 2 else 1
    else 0

/-- The character read at `b₀`, and how many bytes after `b₀` it takes. -/
def lossyStep (b₀ : UInt8) (rest : Bytes) : Char × ℕ :=
  match (b₀ :: rest).toByteArray.utf8DecodeChar? 0 with
  | some c => (c, c.utf8Size - 1)
  | none => (Char.ofNat 0xFFFD, brokenTail b₀ rest)

/-- `String::from_utf8_lossy`. -/
def fromUtf8Lossy : Bytes → List Char
  | [] => []
  | b₀ :: rest =>
    (lossyStep b₀ rest).1 :: fromUtf8Lossy (rest.drop (lossyStep b₀ rest).2)
termination_by b => b.length

/-- `str::from_utf8`, of which the bytes that are no text are none. -/
def fromUtf8 (b : Bytes) : Option (List Char) :=
  if utf8 (fromUtf8Lossy b) = b then some (fromUtf8Lossy b) else none

theorem utf8EncodeChar_ne_nil (c : Char) : String.utf8EncodeChar c ≠ [] := by
  intro h
  have hlen := String.length_utf8EncodeChar c
  rw [h] at hlen
  exact absurd hlen.symm (Nat.ne_of_gt c.utf8Size_pos)

/-- Text reads back as itself. -/
@[simp] theorem fromUtf8Lossy_utf8 : ∀ s : List Char, fromUtf8Lossy (utf8 s) = s
  | [] => by simp [utf8, fromUtf8Lossy]
  | c :: s => by
    obtain ⟨b₀, tail, hc⟩ := List.exists_cons_of_ne_nil (utf8EncodeChar_ne_nil c)
    have hlen : tail.length = c.utf8Size - 1 := by
      have h := String.length_utf8EncodeChar c
      rw [hc, List.length_cons] at h
      omega
    have hread : (b₀ :: (tail ++ utf8 s)).toByteArray.utf8DecodeChar? 0 = some c := by
      rw [← List.cons_append, ← hc, List.toByteArray_append]
      exact ByteArray.utf8DecodeChar?_utf8EncodeChar_append
    have hstep : lossyStep b₀ (tail ++ utf8 s) = (c, tail.length) := by
      rw [lossyStep, hread, hlen]
    rw [utf8_cons, hc, List.cons_append, fromUtf8Lossy, hstep, List.drop_left,
      fromUtf8Lossy_utf8 s]

theorem fromUtf8_utf8 (s : List Char) : fromUtf8 (utf8 s) = some s := by
  rw [fromUtf8, fromUtf8Lossy_utf8, if_pos rfl]

/-! ## ASCII text at the end -/

/-- An ASCII character is one byte, and another ends with a byte that is not ASCII. -/
theorem utf8EncodeChar_cases (c : Char) :
    c.toNat < 128 ∧ String.utf8EncodeChar c = [UInt8.ofNat c.toNat] ∨
      128 ≤ c.toNat ∧ ∃ init y, String.utf8EncodeChar c = init ++ [y] ∧ 128 ≤ y.toNat := by
  have hlast : ∀ v : ℕ, 128 ≤ (UInt8.ofNat (v % 0x40 + 0x80)).toNat := by
    intro v
    rw [UInt8.toNat_ofNat']
    omega
  by_cases hascii : c.toNat < 128
  · refine .inl ⟨hascii, ?_⟩
    have hle : c.val.toNat ≤ 0x7f := Nat.lt_succ_iff.1 hascii
    exact if_pos hle
  · refine .inr ⟨not_lt.1 hascii, ?_⟩
    have hnot : ¬c.val.toNat ≤ 0x7f := fun hle => hascii (Nat.lt_succ_iff.2 hle)
    unfold String.utf8EncodeChar
    rw [if_neg hnot]
    split_ifs
    · exact ⟨[_], _, rfl, hlast _⟩
    · exact ⟨[_, _], _, rfl, hlast _⟩
    · exact ⟨[_, _, _], _, rfl, hlast _⟩

/-- The bytes of a character that is not ASCII are not either. -/
theorem le_of_mem_utf8EncodeChar {c : Char} (hc : 128 ≤ c.toNat) {b : UInt8}
    (hb : b ∈ String.utf8EncodeChar c) : 128 ≤ b.toNat := by
  have hnot : ¬c.val.toNat ≤ 0x7f := fun hle => absurd hc (Nat.not_le.2 (Nat.lt_succ_iff.2 hle))
  have hbyte : ∀ n, 128 ≤ n → n < 256 → b = UInt8.ofNat n → 128 ≤ b.toNat := by
    rintro n hn hlt rfl
    rwa [UInt8.toNat_ofNat_of_lt' hlt]
  unfold String.utf8EncodeChar at hb
  rw [if_neg hnot] at hb
  split_ifs at hb <;> simp only [List.mem_cons, List.not_mem_nil, or_false] at hb
  · rcases hb with hb | hb <;> exact hbyte _ (by omega) (by omega) hb
  · rcases hb with hb | hb | hb <;> exact hbyte _ (by omega) (by omega) hb
  · rcases hb with hb | hb | hb | hb <;> exact hbyte _ (by omega) (by omega) hb

theorem utf8DecodeChar?_eq_some_iff {b : Bytes} {c : Char} :
    b.toByteArray.utf8DecodeChar? 0 = some c ↔ String.utf8EncodeChar c <+: b := by
  refine ⟨fun h => ?_, fun h => ?_⟩
  · obtain ⟨l, hl⟩ := ByteArray.exists_of_utf8DecodeChar?_eq_some h
    refine ⟨l.data.toList, ?_⟩
    have hdata := congrArg (fun a : ByteArray => a.data.toList) hl
    simpa using hdata.symm
  · obtain ⟨rest, rfl⟩ := h
    rw [List.toByteArray_append]
    exact ByteArray.utf8DecodeChar?_utf8EncodeChar_append

/-- A byte string is one character only if both end with ASCII or none. -/
theorem lt_iff_of_utf8EncodeChar_eq {c : Char} {init : Bytes} {x : UInt8}
    (h : String.utf8EncodeChar c = init ++ [x]) :
    x.toNat < 128 ↔ c.toNat < 128 ∧ init = [] ∧ x = UInt8.ofNat c.toNat := by
  rcases utf8EncodeChar_cases c with ⟨hascii, hc⟩ | ⟨hnot, init', y, hc, hy⟩
  · obtain ⟨hinit, hx⟩ := List.append_inj' ((List.nil_append _).trans (hc.symm.trans h)) rfl
    obtain rfl := (List.singleton_inj.1 hx).symm
    have hlt : (UInt8.ofNat c.toNat).toNat < 128 := by
      rw [UInt8.toNat_ofNat']
      omega
    exact iff_of_true hlt ⟨hascii, hinit.symm, rfl⟩
  · obtain rfl := List.singleton_inj.1 (List.append_inj' (hc.symm.trans h) rfl).2
    exact iff_of_false hy.not_gt fun h => absurd h.1 hnot.not_gt

theorem brokenTail_concat {b₀ x : UInt8} (hx : x.toNat < 128) : ∀ rest : Bytes,
    brokenTail b₀ (rest ++ [x]) = brokenTail b₀ rest ∧ brokenTail b₀ rest ≤ rest.length
  | [] => by
    have hsecond : secondByte b₀ x = false := by
      have hlt : ∀ y : UInt8, 128 ≤ y.toNat → decide (y ≤ x) = false := fun y hy =>
        decide_eq_false fun hle => absurd (UInt8.le_iff_toNat_le.1 hle) (by omega)
      unfold secondByte
      split_ifs <;> simp [hlt]
    simp [brokenTail, hsecond]
  | [b₁] => by
    have hlt : decide (0x80 ≤ x) = false :=
      decide_eq_false fun hle => absurd (UInt8.le_iff_toNat_le.1 hle) (not_le.2 hx)
    simp only [List.cons_append, List.nil_append, brokenTail, hlt, Bool.and_false,
      Bool.false_and, Bool.false_eq_true, if_false, List.length_singleton]
    split_ifs <;> simp
  | b₁ :: b₂ :: rest => by
    simp only [List.cons_append, brokenTail, List.length_cons]
    split_ifs <;> simp

/-- An ASCII byte behind a byte string does not change what is read before it. -/
theorem lossyStep_concat (b₀ : UInt8) (rest : Bytes) {x : UInt8} (hx : x.toNat < 128) :
    lossyStep b₀ (rest ++ [x]) = lossyStep b₀ rest ∧ (lossyStep b₀ rest).2 ≤ rest.length := by
  have hdecode : (b₀ :: (rest ++ [x])).toByteArray.utf8DecodeChar? 0 =
      (b₀ :: rest).toByteArray.utf8DecodeChar? 0 := by
    refine Option.ext fun c => ?_
    rw [utf8DecodeChar?_eq_some_iff, utf8DecodeChar?_eq_some_iff, ← List.cons_append,
      List.prefix_concat_iff]
    refine or_iff_right fun h => ?_
    exact absurd ((lt_iff_of_utf8EncodeChar_eq h).1 hx).2.1 (List.cons_ne_nil _ _)
  rw [lossyStep, lossyStep, hdecode]
  cases hread : (b₀ :: rest).toByteArray.utf8DecodeChar? 0 with
  | none =>
    obtain ⟨heq, hle⟩ := @brokenTail_concat b₀ x hx rest
    exact ⟨congrArg _ heq, hle⟩
  | some c =>
    refine ⟨rfl, ?_⟩
    have hle := (utf8DecodeChar?_eq_some_iff.1 hread).length_le
    rw [String.length_utf8EncodeChar, List.length_cons] at hle
    exact Nat.sub_le_of_le_add hle

theorem utf8EncodeChar_ascii {c : Char} (hc : c.toNat < 128) :
    String.utf8EncodeChar c = [UInt8.ofNat c.toNat] :=
  (utf8EncodeChar_cases c).elim And.right fun h => absurd h.1 hc.not_ge

theorem toNat_ofNat_ascii {c : Char} (hc : c.toNat < 128) : (UInt8.ofNat c.toNat).toNat < 128 := by
  rw [UInt8.toNat_ofNat']
  omega

theorem exists_char_of_ascii {x : UInt8} (hx : x.toNat < 128) :
    ∃ c : Char, c.toNat < 128 ∧ x = UInt8.ofNat c.toNat := by
  have hvalid : x.toNat.isValidChar := .inl (by omega)
  have hchar : (Char.ofNat x.toNat).toNat = x.toNat := by
    rw [Char.ofNat, dif_pos hvalid]
    rfl
  exact ⟨Char.ofNat x.toNat, hchar.trans_lt hx, by rw [hchar, UInt8.ofNat_toNat]⟩

/-- An ASCII character at the end is read as itself. -/
theorem fromUtf8Lossy_concat {c : Char} (hc : c.toNat < 128) : ∀ b : Bytes,
    fromUtf8Lossy (b ++ [UInt8.ofNat c.toNat]) = fromUtf8Lossy b ++ [c]
  | [] => by
    have hchar : ([] ++ [UInt8.ofNat c.toNat] : Bytes) = utf8 [c] := by
      rw [utf8_cons, utf8EncodeChar_ascii hc]
      rfl
    rw [hchar, fromUtf8Lossy_utf8, fromUtf8Lossy, List.nil_append]
  | b₀ :: rest => by
    obtain ⟨hstep, hle⟩ := lossyStep_concat b₀ rest (toNat_ofNat_ascii hc)
    rw [List.cons_append, fromUtf8Lossy, fromUtf8Lossy, hstep, List.drop_append_of_le_length hle,
      fromUtf8Lossy_concat hc (rest.drop (lossyStep b₀ rest).2), List.cons_append]
termination_by b => b.length
decreasing_by
  simp only [List.length_drop, List.length_cons]
  omega

/-- What ends with a byte that is not ASCII is read as text that ends so. -/
theorem le_of_mem_getLast?_fromUtf8Lossy {c : Char} {x : UInt8} (hx : 128 ≤ x.toNat) :
    ∀ b : Bytes, b.getLast? = some x → (fromUtf8Lossy b).getLast? = some c → 128 ≤ c.toNat
  | [], hb, _ => by cases hb
  | b₀ :: rest, hb, hc => by
    rw [fromUtf8Lossy] at hc
    rcases hrest : rest.drop (lossyStep b₀ rest).2 with _ | ⟨b₁, tail⟩
    · rw [hrest, fromUtf8Lossy, List.getLast?_singleton] at hc
      obtain rfl := Option.some.inj hc
      rw [lossyStep] at hrest ⊢
      cases hread : (b₀ :: rest).toByteArray.utf8DecodeChar? 0 with
      | none =>
        dsimp only
        decide
      | some c =>
        rw [hread] at hrest
        dsimp only at hrest ⊢
        obtain ⟨after, hafter⟩ := utf8DecodeChar?_eq_some_iff.1 hread
        have hlen := congrArg List.length hafter
        have hdrop := List.drop_eq_nil_iff.1 hrest
        rw [List.length_append, String.length_utf8EncodeChar, List.length_cons] at hlen
        have hpos := c.utf8Size_pos
        obtain rfl : after = [] := List.eq_nil_of_length_eq_zero (by omega)
        obtain ⟨init, hinit⟩ := List.getLast?_eq_some_iff.1 hb
        rw [List.append_nil, hinit] at hafter
        by_contra hlt
        have hascii := utf8EncodeChar_ascii (not_le.1 hlt)
        obtain ⟨-, hlast⟩ := List.append_inj' ((List.nil_append _).trans
          (hascii.symm.trans hafter)) rfl
        have hsmall := toNat_ofNat_ascii (not_le.1 hlt)
        rw [List.singleton_inj.1 hlast] at hsmall
        omega
    · have hlast : (rest.drop (lossyStep b₀ rest).2).getLast? = some x := by
        rw [List.getLast?_drop, if_neg]
        · rwa [List.getLast?_cons_of_ne_nil] at hb
          rintro rfl
          simp at hrest
        · intro hle
          rw [List.drop_eq_nil_of_le hle] at hrest
          cases hrest
      have hne : fromUtf8Lossy (rest.drop (lossyStep b₀ rest).2) ≠ [] := by
        rw [hrest, fromUtf8Lossy]
        exact List.cons_ne_nil _ _
      rw [List.getLast?_cons_of_ne_nil hne] at hc
      exact le_of_mem_getLast?_fromUtf8Lossy hx _ hlast hc
termination_by b => b.length
decreasing_by
  simp only [List.length_drop, List.length_cons]
  omega

/-- Text of ASCII characters is at the end of what is read exactly if its bytes are at the
end. -/
theorem suffix_fromUtf8Lossy_iff {t : List Char} (ht : ∀ c ∈ t, c.toNat < 128) {b : Bytes} :
    t <:+ fromUtf8Lossy b ↔ utf8 t <:+ b := by
  induction t using List.reverseRecOn generalizing b with
  | nil => exact iff_of_true List.nil_suffix List.nil_suffix
  | append_singleton t c ih =>
    have hc : c.toNat < 128 := ht c (by simp)
    have hinit : ∀ c ∈ t, c.toNat < 128 := fun c hmem => ht c (by simp [hmem])
    have hutf8 : utf8 (t ++ [c]) = utf8 t ++ [UInt8.ofNat c.toNat] := by
      rw [utf8, List.flatMap_append, List.flatMap_singleton, utf8EncodeChar_ascii hc, utf8]
    rw [hutf8]
    refine ⟨fun h => ?_, fun h => ?_⟩
    · obtain ⟨s, hs⟩ := h
      rw [← List.append_assoc] at hs
      rcases List.eq_nil_or_concat b with rfl | ⟨b', x, rfl⟩
      · rw [fromUtf8Lossy] at hs
        exact absurd hs (List.concat_ne_nil _ _)
      rw [List.concat_eq_append] at hs ⊢
      by_cases hx : x.toNat < 128
      · obtain ⟨c', hc', rfl⟩ := exists_char_of_ascii hx
        rw [fromUtf8Lossy_concat hc'] at hs
        obtain ⟨hbefore, hlast⟩ := List.append_inj' hs rfl
        obtain rfl := List.singleton_inj.1 hlast
        obtain ⟨s', rfl⟩ := (ih hinit).1 ⟨s, hbefore⟩
        exact ⟨s', (List.append_assoc _ _ _).symm⟩
      · have hlast : (fromUtf8Lossy (b' ++ [x])).getLast? = some c := by
          rw [← hs, List.getLast?_concat]
        have hle := le_of_mem_getLast?_fromUtf8Lossy (not_lt.1 hx) _ List.getLast?_concat hlast
        exact absurd hc hle.not_gt
    · obtain ⟨s, rfl⟩ := h
      rw [← List.append_assoc, fromUtf8Lossy_concat hc]
      obtain ⟨s', hs'⟩ := (ih hinit).2 (List.suffix_append s (utf8 t))
      exact ⟨s', by rw [← hs', List.append_assoc]⟩

end Rust
