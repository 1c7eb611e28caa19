/-!
# Byte order of texts

Texts compare character by character as their encodings compare byte by byte, so whatever is in
the order of texts is in the order of bytes.
-/

namespace ImportContext.Text

/-- The bytes of a text. -/
def bytes (s : String) : List UInt8 :=
  s.toUTF8.data.toList

theorem bytes_eq (s : String) : bytes s = s.toList.flatMap String.utf8EncodeChar := by
  rw [bytes, String.toUTF8_eq_toByteArray, ← String.utf8Encode_toList, List.utf8Encode,
    List.toList_data_toByteArray]

/-- The encoding of a smaller character comes first, whatever follows. -/
theorem utf8EncodeChar_append_lt {c d : Char} (h : c < d) (cs ds : List UInt8) :
    String.utf8EncodeChar c ++ cs < String.utf8EncodeChar d ++ ds := by
  have hlt : c.val.toNat < d.val.toNat := h
  have hbound : d.val.toNat < 1114112 := by
    have hvalid := d.valid
    rw [UInt32.isValidChar, Nat.isValidChar] at hvalid
    omega
  -- the bytes hold the digits of the code to base 64, the highest first
  have hsecond (n : Nat) : n / 4096 = n / 64 / 64 := by omega
  have hthird (n : Nat) : n / 262144 = n / 64 / 64 / 64 := by omega
  simp only [String.utf8EncodeChar, hsecond, hthird]
  generalize c.val.toNat = m at hlt ⊢
  generalize d.val.toNat = n at hlt hbound ⊢
  repeat' split
  all_goals
    simp only [List.cons_append, List.nil_append, List.cons_lt_cons_iff, UInt8.lt_iff_toNat_lt,
      ← UInt8.toNat_inj, UInt8.toNat_ofNat', Nat.reducePow]
    omega

theorem flatMap_utf8EncodeChar_lt {cs ds : List Char} (h : cs < ds) :
    cs.flatMap String.utf8EncodeChar < ds.flatMap String.utf8EncodeChar := by
  induction h with
  | @nil d ds =>
    obtain ⟨b, bs, hbs⟩ := List.exists_cons_of_ne_nil (String.utf8EncodeChar_ne_nil (c := d))
    rw [List.flatMap_nil, List.flatMap_cons, hbs]
    exact List.nil_lt_cons b _
  | cons _ ih =>
    rw [List.flatMap_cons, List.flatMap_cons]
    exact List.append_left_lt ih
  | rel hlt =>
    rw [List.flatMap_cons, List.flatMap_cons]
    exact utf8EncodeChar_append_lt hlt _ _

/-- Texts in order have their bytes in order. -/
theorem bytes_lt {s t : String} (h : s < t) : bytes s < bytes t := by
  rw [bytes_eq, bytes_eq]
  exact flatMap_utf8EncodeChar_lt h

end ImportContext.Text
