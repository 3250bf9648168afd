import CommandContract.Text.Blank
import CommandContract.Text.Pieces
import CommandContract.Text.Utf8
import Mathlib.Data.List.Basic

set_option autoImplicit false

/-!
# Texts and their bytes

A text is as long as its UTF-8 form, which is put together from the bytes of its characters. A byte
below 128 stands for itself, and every other character has bytes from 128 on only.
-/
namespace CommandContract.Text

theorem byteLength_append (cs ds : List Char) :
    byteLength (cs ++ ds) = byteLength cs + byteLength ds := by
  induction cs with
  | nil => exact (Nat.zero_add _).symm
  | cons c cs ih => rw [List.cons_append, byteLength, byteLength, ih, Nat.add_assoc]

theorem byteLength_le_of_infix {cs ds : List Char} (h : cs <:+: ds) :
    byteLength cs ≤ byteLength ds := by
  obtain ⟨before, behind, rfl⟩ := h
  rw [byteLength_append, byteLength_append]
  omega

theorem byteLength_dropLast_lt {cs : List Char} (h : cs ≠ []) :
    byteLength cs.dropLast < byteLength cs := by
  have last := (cs.getLast h).utf8Size_pos
  have split := congrArg byteLength (List.dropLast_append_getLast h)
  rw [byteLength_append, byteLength, byteLength] at split
  omega

/-- The list of bytes is the one that the array is made of. -/
theorem toList_bytes (bytes : ByteArray) : bytes.toList = bytes.data.toList := by
  have collected : ∀ (i : Nat) (found : List UInt8), ByteArray.toList.loop bytes i found =
      found.reverse ++ bytes.data.toList.drop i := by
    intro i found
    fun_induction ByteArray.toList.loop bytes i found with
    | case1 i found inside ih =>
      have here : bytes.data.toList.drop i = bytes.get! i :: bytes.data.toList.drop (i + 1) := by
        have short : i < bytes.data.toList.length := inside
        rw [List.drop_eq_getElem_cons short]
        exact congrArg (· :: _) (getElem!_pos bytes.data i inside).symm
      rw [ih, here, List.reverse_cons, List.append_assoc]
      rfl
    | case2 i found outside =>
      have past : bytes.data.toList.length ≤ i := by simpa using outside
      rw [List.drop_of_length_le past, List.append_nil]
  exact collected 0 []

theorem utf8_ofList (cs : List Char) :
    utf8 (String.ofList cs) = (cs.flatMap String.utf8EncodeChar).map UInt8.toNat := by
  rw [utf8, toList_bytes]
  simp [List.utf8Encode]

theorem length_utf8 (s : String) : (utf8 s).length = s.utf8ByteSize := by
  rw [utf8, List.length_map, toList_bytes]
  rfl

theorem byteLength_eq (cs : List Char) : byteLength cs = (String.ofList cs).utf8ByteSize := by
  rw [← length_utf8, utf8_ofList, List.length_map]
  induction cs with
  | nil => rfl
  | cons c cs ih =>
    rw [byteLength, ih, List.flatMap_cons, List.length_append, String.length_utf8EncodeChar]

/-- A beginning of a text ends between two characters. -/
theorem isValid_of_prefix {s : String} {before : List Char} (h : before <+: s.toList) :
    String.Pos.Raw.IsValid s ⟨byteLength before⟩ := by
  obtain ⟨behind, split⟩ := h
  refine String.Pos.Raw.isValid_iff_exists_append.mpr
    ⟨String.ofList before, String.ofList behind, ?_, ?_⟩
  · rw [← String.ofList_append, split, String.ofList_toList]
  · rw [byteLength_eq]
    rfl

theorem utf8_inj {s t : String} (h : utf8 s = utf8 t) : s = t := by
  have bytes : s.toUTF8.toList = t.toUTF8.toList :=
    List.map_injective_iff.mpr (fun _ _ => UInt8.toNat_inj.mp) h
  rw [toList_bytes, toList_bytes, Array.toList_inj] at bytes
  exact String.toByteArray_inj.mp (ByteArray.ext bytes)

/-- Below 128 every byte is a character. -/
theorem utf8_ascii {bytes : List Nat} (small : ∀ b ∈ bytes, b < 128) :
    utf8 (String.ofList (bytes.map Char.ofNat)) = bytes := by
  have one : ∀ b < 128, (String.utf8EncodeChar (Char.ofNat b)).map UInt8.toNat = [b] := by decide
  rw [utf8_ofList]
  induction bytes with
  | nil => rfl
  | cons b bytes ih =>
    rw [List.forall_mem_cons] at small
    rw [List.map_cons, List.flatMap_cons, List.map_append, ih small.2, one b small.1]
    rfl

/-- Every character has a byte that is below 128 only if it is the character itself. -/
theorem exists_byte {c : Char} {cs : List Char} (h : c ∈ cs) :
    ∃ b ∈ utf8 (String.ofList cs), b = c.toNat ∨ 128 ≤ b := by
  have first : ∃ b ∈ String.utf8EncodeChar c, b.toNat = c.toNat ∨ 128 ≤ b.toNat := by
    unfold String.utf8EncodeChar
    dsimp only
    split
    · rename_i small
      refine ⟨_, List.mem_cons_self, .inl ?_⟩
      rw [UInt8.toNat_ofNat']
      exact Nat.mod_eq_of_lt (by omega)
    · split
      · refine ⟨_, List.mem_cons_self, .inr ?_⟩
        rw [UInt8.toNat_ofNat']
        omega
      · split
        · refine ⟨_, List.mem_cons_self, .inr ?_⟩
          rw [UInt8.toNat_ofNat']
          omega
        · refine ⟨_, List.mem_cons_self, .inr ?_⟩
          rw [UInt8.toNat_ofNat']
          omega
  obtain ⟨b, hb, he⟩ := first
  rw [utf8_ofList]
  exact ⟨b.toNat, List.mem_map_of_mem (List.mem_flatMap.mpr ⟨c, h, hb⟩), he⟩

end CommandContract.Text
