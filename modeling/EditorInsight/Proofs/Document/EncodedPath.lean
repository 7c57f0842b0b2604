import EditorInsight.Document.Basic
import EditorInsight.Proofs.Text.Blank
import EditorInsight.Proofs.Text.Utf8

/-!
# Paths written as identifiers

A path is written as a `file://` identifier by escaping the bytes of its characters. Nothing in such an
identifier is dropped or cut off, and all of it is one run of ASCII characters, so decoding its escapes gives
back the bytes, and decoding those the path.
-/

namespace EditorInsight

namespace Text

def byteCode (b : UInt8) : Text :=
  if isUnreserved b then [Char.ofNat b.toNat]
  else ['%', upperHexDigit (b.toNat / 16), upperHexDigit (b.toNat % 16)]

theorem percentEncode_eq_flatMap (t : Text) : percentEncode t = (encodeUtf8 t).flatMap byteCode := rfl

/-- An ASCII character that an identifier keeps where it stands: no tab, no line end and no delimiter of a
later part. -/
structure IsKept (c : Char) : Prop where
  ascii : c.toNat < 128
  not_dropped : (c != '\t' && c != '\r' && c != '\n') = true
  not_hash : (c != '#') = true
  not_question : (c != '?') = true

instance (c : Char) : Decidable (IsKept c) :=
  decidable_of_iff (c.toNat < 128 ∧ (c != '\t' && c != '\r' && c != '\n') = true ∧ (c != '#') = true ∧
      (c != '?') = true)
    ⟨fun h => ⟨h.1, h.2.1, h.2.2.1, h.2.2.2⟩, fun h => ⟨h.ascii, h.not_dropped, h.not_hash, h.not_question⟩⟩

/-! One byte at a time. -/

theorem hexDigit?_upperHexDigit {n : Nat} (h : n < 16) : hexDigit? (upperHexDigit n) = some n := by
  revert n
  decide

theorem isKept_upperHexDigit {n : Nat} (h : n < 16) : IsKept (upperHexDigit n) := by
  revert n
  decide

theorem hexByte?_upperHexDigit (b : UInt8) :
    hexByte? (upperHexDigit (b.toNat / 16)) (upperHexDigit (b.toNat % 16)) = some b := by
  have hb := b.toNat_lt
  have hsum : b.toNat / 16 * 16 + b.toNat % 16 = b.toNat := Nat.div_add_mod' _ _
  rw [hexByte?, hexDigit?_upperHexDigit (show b.toNat / 16 < 16 by omega),
    hexDigit?_upperHexDigit (show b.toNat % 16 < 16 by omega)]
  change some (UInt8.ofNat (b.toNat / 16 * 16 + b.toNat % 16)) = some b
  rw [hsum, UInt8.ofNat_toNat]

theorem toNat_ofNat_ascii {n : Nat} (h : n < 128) : (Char.ofNat n).toNat = n := by
  revert n
  decide

theorem toNat_unreserved {b : UInt8} (h : isUnreserved b = true) :
    b.toNat < 128 ∧ (Char.ofNat b.toNat).toNat = b.toNat := by
  have hb : b.toNat < 128 := by
    have hlt : b < 128 := by
      simp only [isUnreserved, Bool.and_eq_true, decide_eq_true_eq] at h
      exact h.1
    exact UInt8.lt_iff_toNat_lt.mp hlt
  exact ⟨hb, toNat_ofNat_ascii hb⟩

theorem ofNat_ne_of_isUnreserved {b : UInt8} (h : isUnreserved b = true) {d : Char}
    (hd : (d.isAlphanum || d == '/' || d == '_' || d == '.' || d == '-' || d == '~') = false) :
    Char.ofNat b.toNat ≠ d := by
  rintro rfl
  rw [isUnreserved, hd, Bool.and_false] at h
  cases h

theorem isKept_of_mem_byteCode {b : UInt8} {c : Char} (h : c ∈ byteCode b) : IsKept c := by
  unfold byteCode at h
  split at h
  · rename_i hb
    obtain rfl := List.mem_singleton.mp h
    obtain ⟨hlt, hback⟩ := toNat_unreserved hb
    have hne {d : Char} := @ofNat_ne_of_isUnreserved b hb d
    refine ⟨hback.trans_lt hlt, ?_, bne_iff_ne.mpr (hne (by decide)), bne_iff_ne.mpr (hne (by decide))⟩
    simp only [Bool.and_eq_true, bne_iff_ne]
    exact ⟨⟨hne (by decide), hne (by decide)⟩, hne (by decide)⟩
  · have hb := b.toNat_lt
    simp only [List.mem_cons, List.not_mem_nil, or_false] at h
    rcases h with rfl | rfl | rfl
    · decide
    · exact isKept_upperHexDigit (by omega)
    · exact isKept_upperHexDigit (by omega)

theorem percentBytes_cons {c : Char} (hc : c ≠ '%') (r : Text) :
    percentBytes (c :: r) = UInt8.ofNat c.toNat :: percentBytes r := by
  rw [percentBytes]
  intro a b s heq
  exact absurd heq hc

theorem percentBytes_byteCode_append (b : UInt8) (r : Text) :
    percentBytes (byteCode b ++ r) = b :: percentBytes r := by
  unfold byteCode
  split
  · rename_i hb
    rw [List.singleton_append, percentBytes_cons (ofNat_ne_of_isUnreserved hb (by decide)),
      (toNat_unreserved hb).2, UInt8.ofNat_toNat]
  · simp only [List.cons_append, List.nil_append, percentBytes, hexByte?_upperHexDigit]

/-! Whole texts. -/

theorem isKept_of_mem_percentEncode {t : Text} {c : Char} (h : c ∈ percentEncode t) : IsKept c := by
  rw [percentEncode_eq_flatMap] at h
  obtain ⟨b, -, hc⟩ := List.mem_flatMap.mp h
  exact isKept_of_mem_byteCode hc

theorem percentBytes_flatMap_byteCode (bs : List UInt8) : percentBytes (bs.flatMap byteCode) = bs := by
  induction bs with
  | nil => rfl
  | cons b bs ih => rw [List.flatMap_cons, percentBytes_byteCode_append, ih]

theorem percentDecodeFrom_ascii {t : Text} (ht : ∀ c ∈ t, c.toNat < 128) (run : Text) :
    percentDecodeFrom run t = decodeUtf8Lossy (percentBytes (run.reverse ++ t)) := by
  induction t generalizing run with
  | nil => rw [List.append_nil, percentDecodeFrom, percentRun]
  | cons c t ih =>
    rw [percentDecodeFrom, if_pos (ht c List.mem_cons_self),
      ih fun d hd => ht d (List.mem_cons_of_mem c hd), List.reverse_cons, List.append_assoc,
      List.singleton_append]

theorem decodeUtf8Lossy_encodeUtf8 (t : Text) : decodeUtf8Lossy (encodeUtf8 t) = t := by
  rw [decodeUtf8Lossy, scalars_encodeUtf8, List.map_map]
  exact List.map_id t

/-- Decoding escapes undoes writing them. -/
theorem percentDecode_percentEncode (t : Text) : percentDecode (percentEncode t) = t := by
  have hascii : ∀ c ∈ percentEncode t, c.toNat < 128 := fun c hc => (isKept_of_mem_percentEncode hc).ascii
  rw [percentDecode, percentDecodeFrom_ascii hascii, List.reverse_nil, List.nil_append,
    percentEncode_eq_flatMap, percentBytes_flatMap_byteCode, decodeUtf8Lossy_encodeUtf8]

theorem percentEncode_slash_cons (r : Text) : percentEncode ('/' :: r) = '/' :: percentEncode r := by
  have hslash : encodeUtf8 ('/' :: r) = 47 :: encodeUtf8 r := rfl
  rw [percentEncode_eq_flatMap, hslash, List.flatMap_cons, percentEncode_eq_flatMap]
  rfl

end Text

namespace Uri

theorem filePath_of_isKept {r : Text} (hr : ∀ c ∈ '/' :: r, Text.IsKept c) :
    filePath ('/' :: r) = .ok (Text.percentDecode ('/' :: r)) := by
  have hfilter : ('/' :: r).filter (fun c => c != '\t' && c != '\r' && c != '\n') = '/' :: r :=
    List.filter_eq_self.mpr fun c hc => (hr c hc).not_dropped
  have hhash : ('/' :: r).takeWhile (· != '#') = '/' :: r :=
    List.takeWhile_eq_self_iff.mpr fun c hc => (hr c hc).not_hash
  have hquestion : ('/' :: r).takeWhile (· != '?') = '/' :: r :=
    List.takeWhile_eq_self_iff.mpr fun c hc => (hr c hc).not_question
  have hauthority : ('/' :: r).takeWhile (fun c => !isEndOfAuthority c) = [] := rfl
  have hrest : ('/' :: r).dropWhile (fun c => !isEndOfAuthority c) = '/' :: r := rfl
  have hcheck : checkAuthority [] = .ok () := rfl
  simp only [filePath, hfilter, hauthority, hrest, hcheck, hhash, hquestion]

end Uri

/-- An absolute path, written as a `file://` identifier, is the path of its document. -/
theorem Document.path_of_percentEncode {p : Text} (hp : p.head? = some '/') (text : Text) (version : Int) :
    (Document.mk ("file://" ++ Text.percentEncode p) text version).path = .ok p := by
  obtain ⟨r, rfl⟩ := List.head?_eq_some_iff.mp hp
  have hkept : ∀ c ∈ '/' :: Text.percentEncode r, Text.IsKept c := fun c hc =>
    Text.isKept_of_mem_percentEncode (t := '/' :: r) (Text.percentEncode_slash_cons r ▸ hc)
  rw [Document.path, Uri.path, Text.after?_append]
  dsimp only
  rw [Text.percentEncode_slash_cons, Uri.filePath_of_isKept hkept, ← Text.percentEncode_slash_cons,
    Text.percentDecode_percentEncode]

theorem Document.path_of_percentEncode_delimiters :
    Text.percentEncode "//a%41?[é#\n€/😀~" = "//a%2541%3F%5B%C3%A9%23%0A%E2%82%AC/%F0%9F%98%80~" ∧
      (Document.mk ("file://" ++ Text.percentEncode "//a%41?[é#\n€/😀~") "x = 1" 3).path =
        .ok "//a%41?[é#\n€/😀~" :=
  ⟨by decide, Document.path_of_percentEncode (by decide) "x = 1" 3⟩

end EditorInsight
