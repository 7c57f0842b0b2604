import Mathlib.Data.List.Infix
import EditorInsight.Proofs.Text.Lines
import EditorInsight.Text.Utf8

/-!
# Laws of UTF-8 and of line ends

Decoding undoes encoding: the first byte of a character says how many follow and bounds the second one, and
the bits of the bytes add up to the number of the character. Making all line ends alike does not move them,
where every carriage return belongs to one.
-/

namespace EditorInsight.Text

/-! One byte at a time. -/

theorem scalars_complete {b : UInt8} {c : Char} (h : leadByte b = .complete c) (r : List UInt8) :
    scalars none (b :: r) = some c :: scalars none r := by
  simp only [scalars, h]

theorem scalars_begun {b : UInt8} {p : PartialChar} (h : leadByte b = .begun p) (r : List UInt8) :
    scalars none (b :: r) = scalars (some p) r := by
  simp only [scalars, h]

theorem scalars_next {bits missing least greatest : Nat} {b : UInt8} (hleast : least ≤ b.toNat)
    (hgreatest : b.toNat ≤ greatest) (r : List UInt8) :
    scalars (some ⟨bits, missing + 2, least, greatest⟩) (b :: r) =
      scalars (some ⟨bits * 64 + (b.toNat - 0x80), missing + 1, 0x80, 0xBF⟩) r := by
  simp [scalars, hleast, hgreatest]

theorem scalars_last {bits least greatest : Nat} {b : UInt8} (hleast : least ≤ b.toNat)
    (hgreatest : b.toNat ≤ greatest) (r : List UInt8) :
    scalars (some ⟨bits, 1, least, greatest⟩) (b :: r) =
      some (Char.ofNat (bits * 64 + (b.toNat - 0x80))) :: scalars none r := by
  simp [scalars, hleast, hgreatest]

/-! One character at a time. -/

theorem leadByte_two {q : Nat} (hlow : 2 ≤ q) (hhigh : q < 32) :
    leadByte (UInt8.ofNat (0xC0 + q)) = .begun ⟨q, 1, 0x80, 0xBF⟩ := by
  simp only [leadByte, UInt8.toNat_ofNat_of_lt' (show 0xC0 + q < 256 by omega)]
  simp [show ¬ 0xC0 + q < 0x80 by omega, show ¬ 0xC0 + q < 0xC2 by omega, show 0xC0 + q < 0xE0 by omega]

/-- The second byte is bounded so that no overlong form and no surrogate is read. -/
theorem exists_leadByte_three {n : Nat} (hlow : 0x800 ≤ n) (hhigh : n < 0x10000)
    (hvalid : n < 0xD800 ∨ 0xDFFF < n) :
    ∃ least greatest, leadByte (UInt8.ofNat (0xE0 + n / 4096)) = .begun ⟨n / 4096, 2, least, greatest⟩ ∧
      least ≤ 0x80 + n / 64 % 64 ∧ 0x80 + n / 64 % 64 ≤ greatest := by
  have hbyte := UInt8.toNat_ofNat_of_lt' (show 0xE0 + n / 4096 < 256 by omega)
  have hfew : ¬ 0xE0 + n / 4096 < 0x80 ∧ ¬ 0xE0 + n / 4096 < 0xC2 ∧ ¬ 0xE0 + n / 4096 < 0xE0 := by omega
  simp only [leadByte, hbyte, hfew, if_false]
  by_cases hzero : n / 4096 = 0
  · exact ⟨0xA0, 0xBF, by simp [hzero], by omega, by omega⟩
  · by_cases hsurrogate : n / 4096 = 0xD
    · exact ⟨0x80, 0x9F, by simp [hsurrogate], by omega, by omega⟩
    · refine ⟨0x80, 0xBF, ?_, by omega, by omega⟩
      simp [hzero, show ¬ 0xE0 + n / 4096 = 0xED by omega, show 0xE0 + n / 4096 < 0xF0 by omega]

/-- The second byte is bounded so that no overlong form and nothing beyond the last character is read. -/
theorem exists_leadByte_four {n : Nat} (hlow : 0x10000 ≤ n) (hhigh : n < 0x110000) :
    ∃ least greatest, leadByte (UInt8.ofNat (0xF0 + n / 262144)) = .begun ⟨n / 262144, 3, least, greatest⟩ ∧
      least ≤ 0x80 + n / 4096 % 64 ∧ 0x80 + n / 4096 % 64 ≤ greatest := by
  have hbyte := UInt8.toNat_ofNat_of_lt' (show 0xF0 + n / 262144 < 256 by omega)
  have hfew : ¬ 0xF0 + n / 262144 < 0x80 ∧ ¬ 0xF0 + n / 262144 < 0xC2 ∧ ¬ 0xF0 + n / 262144 < 0xE0 ∧
      ¬ 0xF0 + n / 262144 = 0xE0 ∧ ¬ 0xF0 + n / 262144 = 0xED ∧ ¬ 0xF0 + n / 262144 < 0xF0 := by omega
  simp only [leadByte, hbyte, hfew, if_false]
  by_cases hzero : n / 262144 = 0
  · exact ⟨0x90, 0xBF, by simp [hzero], by omega, by omega⟩
  · by_cases hlast : n / 262144 = 4
    · exact ⟨0x80, 0x8F, by simp [hlast], by omega, by omega⟩
    · refine ⟨0x80, 0xBF, ?_, by omega, by omega⟩
      simp [hzero, show 0xF0 + n / 262144 < 0xF4 by omega]

theorem toNat_continuation (m : Nat) : (UInt8.ofNat (0x80 + m % 64)).toNat = 0x80 + m % 64 :=
  UInt8.toNat_ofNat_of_lt' (show 0x80 + m % 64 < 256 by omega)

theorem scalars_two {n : Nat} (hlow : 0x80 ≤ n) (hhigh : n < 0x800) (r : List UInt8) :
    scalars none (UInt8.ofNat (0xC0 + n / 64) :: UInt8.ofNat (0x80 + n % 64) :: r) =
      some (Char.ofNat n) :: scalars none r := by
  have hlast := toNat_continuation n
  have hbits : n / 64 * 64 + (0x80 + n % 64 - 0x80) = n := by omega
  rw [scalars_begun (leadByte_two (by omega) (by omega)), scalars_last (by omega) (by omega), hlast, hbits]

theorem scalars_three {n : Nat} (hlow : 0x800 ≤ n) (hhigh : n < 0x10000)
    (hvalid : n < 0xD800 ∨ 0xDFFF < n) (r : List UInt8) :
    scalars none (UInt8.ofNat (0xE0 + n / 4096) :: UInt8.ofNat (0x80 + n / 64 % 64) ::
      UInt8.ofNat (0x80 + n % 64) :: r) = some (Char.ofNat n) :: scalars none r := by
  obtain ⟨least, greatest, hlead, hleast, hgreatest⟩ := exists_leadByte_three hlow hhigh hvalid
  have hsecond := toNat_continuation (n / 64)
  have hlast := toNat_continuation n
  have hbits : (n / 4096 * 64 + (0x80 + n / 64 % 64 - 0x80)) * 64 + (0x80 + n % 64 - 0x80) = n := by omega
  rw [scalars_begun hlead, scalars_next (by omega) (by omega), scalars_last (by omega) (by omega), hsecond,
    hlast, hbits]

theorem scalars_four {n : Nat} (hlow : 0x10000 ≤ n) (hhigh : n < 0x110000) (r : List UInt8) :
    scalars none (UInt8.ofNat (0xF0 + n / 262144) :: UInt8.ofNat (0x80 + n / 4096 % 64) ::
      UInt8.ofNat (0x80 + n / 64 % 64) :: UInt8.ofNat (0x80 + n % 64) :: r) =
      some (Char.ofNat n) :: scalars none r := by
  obtain ⟨least, greatest, hlead, hleast, hgreatest⟩ := exists_leadByte_four hlow hhigh
  have hsecond := toNat_continuation (n / 4096)
  have hthird := toNat_continuation (n / 64)
  have hlast := toNat_continuation n
  have hbits : ((n / 262144 * 64 + (0x80 + n / 4096 % 64 - 0x80)) * 64 + (0x80 + n / 64 % 64 - 0x80)) * 64 +
      (0x80 + n % 64 - 0x80) = n := by omega
  rw [scalars_begun hlead, scalars_next (by omega) (by omega), scalars_next (by omega) (by omega),
    scalars_last (by omega) (by omega), hsecond, hthird, hlast, hbits]

theorem scalars_encodeChar_append (c : Char) (r : List UInt8) :
    scalars none (encodeChar c ++ r) = some c :: scalars none r := by
  have hvalid : c.val.toNat < 0xD800 ∨ 0xDFFF < c.val.toNat ∧ c.val.toNat < 0x110000 := c.valid
  have hback : Char.ofNat c.val.toNat = c := Char.ofNat_toNat c
  unfold encodeChar
  generalize c.val.toNat = n at hvalid hback
  subst hback
  dsimp only
  split
  · rename_i hone
    have hlead : leadByte (UInt8.ofNat n) = .complete (Char.ofNat n) := by
      simp only [leadByte, UInt8.toNat_ofNat_of_lt' (show n < 256 by omega), hone, if_true]
    exact scalars_complete hlead r
  · split
    · rename_i htwo
      exact scalars_two (by omega) htwo r
    · split
      · rename_i hthree
        exact scalars_three (by omega) hthree (by omega) r
      · exact scalars_four (by omega) (by omega) r

theorem scalars_encodeUtf8 (t : Text) : scalars none (encodeUtf8 t) = t.map some := by
  induction t with
  | nil => rfl
  | cons c t ih =>
    rw [encodeUtf8, List.flatMap_cons, scalars_encodeChar_append, List.map_cons]
    exact congrArg _ ih

theorem decodeUtf8?_encodeUtf8 (t : Text) : decodeUtf8? (encodeUtf8 t) = some t := by
  rw [decodeUtf8?, scalars_encodeUtf8]
  induction t with
  | nil => rfl
  | cons c t ih =>
    rw [List.map_cons, List.mapM_cons, ih]
    rfl

/-! Line ends. -/

/-- Every carriage return is followed by a line feed. -/
def ReturnsEndLines (t : Text) : Prop := ∀ y, '\r' :: y <:+ t → y.head? = some '\n'

instance (t : Text) : Decidable (ReturnsEndLines t) :=
  decidable_of_iff (∀ u ∈ t.tails, u.head? = some '\r' → u.tail.head? = some '\n') <| by
    constructor
    · intro h y hy
      exact h ('\r' :: y) ((List.mem_tails _ _).mpr hy) rfl
    · intro h u hu hhead
      obtain ⟨y, rfl⟩ := List.head?_eq_some_iff.mp hhead
      exact h y ((List.mem_tails _ _).mp hu)

theorem ReturnsEndLines.of_suffix {s t : Text} (h : ReturnsEndLines t) (hs : s <:+ t) : ReturnsEndLines s :=
  fun y hy => h y (hy.trans hs)

theorem splitLines_universalNewlines {t : Text} (h : ReturnsEndLines t) :
    splitLines (universalNewlines t) = splitLines t := by
  fun_induction universalNewlines t with
  | case1 => rfl
  | case2 r ih =>
    have hr := ih (h.of_suffix ⟨['\r', '\n'], rfl⟩)
    rw [splitLines, splitLines, hr]
  | case3 r hnot =>
    have hhead := h r (List.suffix_refl _)
    obtain ⟨y, rfl⟩ := List.head?_eq_some_iff.mp hhead
    exact absurd rfl (hnot y)
  | case4 c r hcrlf hcr ih =>
    have hr := ih (h.of_suffix (List.suffix_cons c r))
    by_cases hc : c = '\n'
    · subst hc
      rw [splitLines, splitLines, hr]
    · cases hlines : splitLines r with
      | nil => exact absurd hlines (splitLines_ne_nil r)
      | cons first others =>
        rw [hlines] at hr
        have hnot : c = '\r' → r.head? ≠ some '\n' := fun hc => absurd hc hcr
        have hnot' : c = '\r' → (universalNewlines r).head? ≠ some '\n' := fun hc => absurd hc hcr
        rw [splitLines_cons hc hnot hlines, splitLines_cons hc hnot' hr]

end EditorInsight.Text
