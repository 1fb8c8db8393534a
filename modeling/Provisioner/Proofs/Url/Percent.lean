import Provisioner.Text.Utf8
import Provisioner.Url.Percent

/-!
# Percent-encoding, read back

* `Percent.decode_encode`: an encoded text decodes to its bytes, whatever else is encoded
  besides `%`.  With `Text.Utf8.flatMap_injective` it tells which text was encoded.
* `Percent.notMem_encode`: a character that is encoded is not in the encoded text.
-/

namespace Provisioner

theorem Text.Utf8.flatMap_injective {cs ds : List Char}
    (h : cs.flatMap String.utf8EncodeChar = ds.flatMap String.utf8EncodeChar) : cs = ds := by
  have hbytes : (String.ofList cs).toByteArray = (String.ofList ds).toByteArray := by
    rw [String.toByteArray_ofList, String.toByteArray_ofList, List.utf8Encode, List.utf8Encode, h]
  have hof : String.ofList cs = String.ofList ds := String.toByteArray_inj.1 hbytes
  rw [← String.toList_ofList (l := cs), hof, String.toList_ofList]

/-- Texts with the same bytes are the same. -/
theorem Text.Utf8.encode_injective {s t : String} (h : encode s = encode t) : s = t :=
  String.toList_injective (flatMap_injective h)

namespace Url.Percent

variable {set : Char → Bool}

/-! ## Digits -/

theorem hexValue?_hexDigit {n : Nat} (h : n < 16) : Json.hexValue? (hexDigit n) = some n := by
  have hall : ∀ n < 16, Json.hexValue? (hexDigit n) = some n := by decide
  exact hall n h

/-- What an encoded byte is written with. -/
theorem mem_encodeByte {b : UInt8} {c : Char} (h : c ∈ encodeByte b) :
    c = '%' ∨ ∃ n < 16, c = hexDigit n := by
  have hb : b.toNat < 256 := b.toNat_lt
  simp only [encodeByte, List.mem_cons, List.not_mem_nil, or_false] at h
  rcases h with rfl | rfl | rfl
  · exact .inl rfl
  · exact .inr ⟨b.toNat / 16, by omega, rfl⟩
  · exact .inr ⟨b.toNat % 16, by omega, rfl⟩

/-! ## Decoding -/

theorem decode_cons_of_ne {c : Char} (h : c ≠ '%') (rest : List Char) :
    decode (c :: rest) = String.utf8EncodeChar c ++ decode rest := by
  rw [decode]
  rintro a b more rfl -
  exact h rfl

theorem decode_encodeByte (b : UInt8) (rest : List Char) :
    decode (encodeByte b ++ rest) = b :: decode rest := by
  have hb : b.toNat < 256 := b.toNat_lt
  have hhigh := hexValue?_hexDigit (n := b.toNat / 16) (by omega)
  have hlow := hexValue?_hexDigit (n := b.toNat % 16) (by omega)
  have hbyte : b.toNat / 16 * 16 + b.toNat % 16 = b.toNat := by omega
  show decode ('%' :: _ :: _ :: rest) = _
  rw [decode, hhigh, hlow]
  show UInt8.ofNat (b.toNat / 16 * 16 + b.toNat % 16) :: decode rest = _
  rw [hbyte, UInt8.ofNat_toNat]

theorem decode_encodeBytes (bytes : List UInt8) (rest : List Char) :
    decode (bytes.flatMap encodeByte ++ rest) = bytes ++ decode rest := by
  induction bytes with
  | nil => rfl
  | cons b bytes ih =>
    rw [List.flatMap_cons, List.append_assoc, decode_encodeByte, ih]
    rfl

theorem decode_encodeChar (h : set '%' = true) (c : Char) (rest : List Char) :
    decode (encodeChar set c ++ rest) = String.utf8EncodeChar c ++ decode rest := by
  unfold encodeChar
  split
  · exact decode_encodeBytes _ rest
  · rename_i hc
    refine decode_cons_of_ne ?_ rest
    rintro rfl
    exact hc h

/-- An encoded text decodes to its bytes. -/
theorem decode_encode (h : set '%' = true) (cs : List Char) :
    decode (encode set cs) = cs.flatMap String.utf8EncodeChar := by
  induction cs with
  | nil => rfl
  | cons c cs ih =>
    rw [encode, List.flatMap_cons, decode_encodeChar h, List.flatMap_cons]
    exact congrArg (_ ++ ·) ih

/-! ## What is not encoded -/

/-- An encoded text consists of characters that are not encoded, and of encodings. -/
theorem mem_encode {cs : List Char} {c : Char} (h : c ∈ encode set cs) :
    (set c = false ∧ c ∈ cs) ∨ c = '%' ∨ ∃ n < 16, c = hexDigit n := by
  obtain ⟨d, hd, hc⟩ := List.mem_flatMap.1 h
  unfold encodeChar at hc
  split at hc
  · obtain ⟨b, -, hb⟩ := List.mem_flatMap.1 hc
    exact .inr (mem_encodeByte hb)
  · rename_i hset
    obtain rfl := List.mem_singleton.1 hc
    exact .inl ⟨Bool.eq_false_iff.2 hset, hd⟩

/-- Marks that have a meaning in URLs are no part of an encoding. -/
theorem notMem_encode {c : Char} (hc : c = '/' ∨ c = '?' ∨ c = '#') {cs : List Char}
    (h : set c = true ∨ c ∉ cs) : c ∉ encode set cs := by
  intro hmem
  rcases mem_encode hmem with ⟨hset, hin⟩ | rfl | ⟨n, hn, rfl⟩
  · rcases h with h | h
    · cases h.symm.trans hset
    · exact h hin
  · revert hc
    decide
  · have hall : ∀ n < 16, ¬ (hexDigit n = '/' ∨ hexDigit n = '?' ∨ hexDigit n = '#') := by decide
    exact hall n hn hc

/-- A text without characters that are encoded stays as it is. -/
theorem encode_of_forall {cs : List Char} (h : ∀ c ∈ cs, set c = false) : encode set cs = cs := by
  induction cs with
  | nil => rfl
  | cons c cs ih =>
    rw [encode, List.flatMap_cons, encodeChar, h c List.mem_cons_self]
    exact congrArg (c :: ·) (ih fun d hd => h d (List.mem_cons_of_mem _ hd))

end Url.Percent

end Provisioner
