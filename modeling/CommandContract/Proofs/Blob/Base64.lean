import CommandContract.Blob.Base64
import CommandContract.Proofs.Except
import CommandContract.Proofs.Text.Bytes
import CommandContract.Proofs.Text.Trim

set_option autoImplicit false

/-!
# What decodes as base64

Decoding is the inverse of encoding: a text decodes to the bytes that it is the encoding of, and
does not decode if there are none. It has symbols and padding only, so no blanks, and four of its
characters stand for three bytes at most.
-/
namespace CommandContract.Base64

/-! ## Symbols -/

theorem bits?_of_large {byte : Nat} (h : 123 ≤ byte) : bits? byte = none := by
  unfold bits?
  rw [if_neg (by omega), if_neg (by omega), if_neg (by omega), if_neg (by omega),
    if_neg (by omega)]

theorem bits?_eq_some_iff {byte bits : Nat} :
    bits? byte = some bits ↔ bits < 64 ∧ symbol bits = byte := by
  constructor
  · intro h
    have back : ∀ byte < 123, ∀ bits ∈ bits? byte, bits < 64 ∧ symbol bits = byte := by decide
    rcases Nat.lt_or_ge byte 123 with small | large
    · exact back byte small bits h
    · rw [bits?_of_large large] at h
      cases h
  · rintro ⟨small, rfl⟩
    have forth : ∀ bits < 64, bits? (symbol bits) = some bits := by decide
    exact forth bits small

theorem need_eq_ok_iff {offset byte bits : Nat} :
    need offset byte = .ok bits ↔ bits < 64 ∧ symbol bits = byte := by
  rw [← bits?_eq_some_iff, need]
  split <;> simp [*]

theorem symbol_ne_pad (bits : Nat) : symbol bits ≠ pad := by
  unfold symbol pad
  split_ifs <;> omega

theorem symbol_bounds (bits : Nat) : 33 ≤ symbol bits ∧ symbol bits < 128 := by
  unfold symbol
  split_ifs <;> omega

/-- Symbols with padding behind them. -/
def padded (symbols : List Nat) (pads : Nat) : List Nat :=
  symbols.map symbol ++ List.replicate pads pad

theorem bounds_of_mem_padded {symbols : List Nat} {pads byte : Nat}
    (h : byte ∈ padded symbols pads) : 33 ≤ byte ∧ byte < 128 := by
  rcases List.mem_append.mp h with h | h
  · obtain ⟨bits, _, rfl⟩ := List.mem_map.mp h
    exact symbol_bounds bits
  · rw [List.eq_of_mem_replicate h]
    decide

/-! ## Encoding -/

section Encoding

variable {a b c d x y z : Nat} {bytes rest : List Nat}

/-- Three bytes are four times six bits. -/
theorem encode_threeBytes (a : Nat) (hb : b < 64) (hc : c < 64) (hd : d < 64)
    (rest : List Nat) :
    encode (threeBytes a b c d ++ rest) = padded [a, b, c, d] 0 ++ encode rest := by
  have first : (a * 4 + b / 16) / 4 = a := by omega
  have second : (a * 4 + b / 16) % 4 * 16 + (b % 16 * 16 + c / 4) / 16 = b := by omega
  have third : (b % 16 * 16 + c / 4) % 16 * 4 + (c % 4 * 64 + d) / 64 = c := by omega
  have fourth : (c % 4 * 64 + d) % 64 = d := by omega
  simp only [threeBytes, List.cons_append, List.nil_append, encode, first, second, third, fourth]
  rfl

theorem encode_two (a : Nat) (hb : b < 64) (hc : c < 64) (unused : c % 4 = 0) :
    encode [a * 4 + b / 16, b % 16 * 16 + c / 4] = padded [a, b, c] 1 := by
  have first : (a * 4 + b / 16) / 4 = a := by omega
  have second : (a * 4 + b / 16) % 4 * 16 + (b % 16 * 16 + c / 4) / 16 = b := by omega
  have third : (b % 16 * 16 + c / 4) % 16 * 4 = c := by omega
  rw [encode, first, second, third]
  rfl

theorem encode_one (a : Nat) (hb : b < 64) (unused : b % 16 = 0) :
    encode [a * 4 + b / 16] = padded [a, b] 2 := by
  have first : (a * 4 + b / 16) / 4 = a := by omega
  have second : (a * 4 + b / 16) % 4 * 16 = b := by omega
  rw [encode, first, second]
  rfl

theorem threeBytes_of_lt (hy : y < 256) (hz : z < 256) :
    threeBytes (x / 4) (x % 4 * 16 + y / 16) (y % 16 * 4 + z / 64) (z % 64) = [x, y, z] := by
  have first : x / 4 * 4 + (x % 4 * 16 + y / 16) / 16 = x := by omega
  have second : (x % 4 * 16 + y / 16) % 16 * 16 + (y % 16 * 4 + z / 64) / 4 = y := by omega
  have third : (y % 16 * 4 + z / 64) % 4 * 64 + z % 64 = z := by omega
  rw [threeBytes, first, second, third]

theorem threeBytes_lt (ha : a < 64) (hb : b < 64) (hc : c < 64) (hd : d < 64) :
    ∀ byte ∈ threeBytes a b c d, byte < 256 := by
  simp only [threeBytes, List.forall_mem_cons]
  exact ⟨by omega, by omega, by omega, nofun⟩

theorem length_encode (bytes : List Nat) :
    (encode bytes).length = 4 * ((bytes.length + 2) / 3) := by
  fun_induction encode bytes with
  | case1 a b c rest ih =>
    simp only [List.length_cons, ih]
    omega
  | case2 a b => simp
  | case3 a => simp
  | case4 => rfl

/-- What is written for bytes, at least one of them, is symbols and at most two pads. -/
theorem exists_padded (small : ∀ byte ∈ bytes, byte < 256) :
    ∃ symbols pads, encode bytes = padded symbols pads ∧ (∀ bits ∈ symbols, bits < 64) ∧
      pads ≤ 2 ∧ (symbols = [] → bytes = []) := by
  fun_induction encode bytes with
  | case1 a b c rest ih =>
    simp only [List.forall_mem_cons] at small
    obtain ⟨ha, hb, hc, small⟩ := small
    obtain ⟨symbols, pads, same, six, few, -⟩ := ih small
    refine ⟨a / 4 :: (a % 4 * 16 + b / 16) :: (b % 16 * 4 + c / 64) :: c % 64 :: symbols, pads,
      ?_, ?_, few, nofun⟩
    · rw [same]
      rfl
    · simp only [List.forall_mem_cons]
      exact ⟨by omega, by omega, by omega, by omega, six⟩
  | case2 a b =>
    simp only [List.forall_mem_cons] at small
    refine ⟨[a / 4, a % 4 * 16 + b / 16, b % 16 * 4], 1, rfl, ?_, by decide, nofun⟩
    simp only [List.forall_mem_cons]
    exact ⟨by omega, by omega, by omega, nofun⟩
  | case3 a =>
    simp only [List.forall_mem_cons] at small
    refine ⟨[a / 4, a % 4 * 16], 2, rfl, ?_, by decide, nofun⟩
    simp only [List.forall_mem_cons]
    exact ⟨by omega, by omega, nofun⟩
  | case4 => exact ⟨[], 0, rfl, nofun, by decide, fun _ => rfl⟩

end Encoding

/-! ## The last group -/

section Last

variable {offset index pads : Nat} {firstPad : Option Nat} {bytes symbols out : List Nat}

/-- The last group is read to its end. -/
theorem lastSymbols_eq_ok (h : lastSymbols offset index firstPad bytes = .ok (symbols, pads)) :
    bytes = padded symbols pads ∧ (∀ bits ∈ symbols, bits < 64) ∧
      (firstPad.isSome = true → symbols = []) := by
  induction bytes generalizing index firstPad symbols pads with
  | nil =>
    cases h
    exact ⟨rfl, nofun, fun _ => rfl⟩
  | cons byte bytes ih =>
    rw [lastSymbols.eq_def] at h
    dsimp only at h
    split at h
    · rename_i padding
      split at h
      · cases h
      · obtain ⟨⟨rest, count⟩, hr, h⟩ := Except.bind_eq_ok_iff.mp h
        obtain ⟨same, -, none⟩ := ih hr
        cases h
        obtain rfl := none rfl
        exact ⟨by rw [same, padding]; rfl, nofun, fun _ => rfl⟩
    · split at h
      · cases h
      · obtain ⟨bits, hb, h⟩ := Except.bind_eq_ok_iff.mp h
        obtain ⟨⟨rest, count⟩, hr, h⟩ := Except.bind_eq_ok_iff.mp h
        obtain ⟨same, six, -⟩ := ih hr
        obtain ⟨small, written⟩ := need_eq_ok_iff.mp hb
        cases h
        exact ⟨by rw [same, ← written]; rfl, List.forall_mem_cons.mpr ⟨small, six⟩, nofun⟩

theorem lastSymbols_pads (enough : 2 ≤ index) (pads : Nat) :
    lastSymbols offset index firstPad (List.replicate pads pad) = .ok ([], pads) := by
  induction pads generalizing index firstPad with
  | zero => rfl
  | succ pads ih =>
    rw [List.replicate_succ, lastSymbols.eq_def]
    dsimp only
    rw [if_pos rfl, if_neg (by omega), ih (by omega)]
    rfl

theorem lastSymbols_padded (six : ∀ bits ∈ symbols, bits < 64)
    (enough : pads = 0 ∨ 2 ≤ index + symbols.length) :
    lastSymbols offset index none (padded symbols pads) = .ok (symbols, pads) := by
  induction symbols generalizing index with
  | nil =>
    rcases enough with rfl | enough
    · rfl
    · exact lastSymbols_pads enough pads
  | cons bits symbols ih =>
    rw [List.forall_mem_cons] at six
    rw [List.length_cons] at enough
    have read : need (offset + index) (symbol bits) = .ok bits := need_eq_ok_iff.mpr ⟨six.1, rfl⟩
    rw [padded, List.map_cons, List.cons_append, ← padded, lastSymbols.eq_def]
    dsimp only
    rw [if_neg (symbol_ne_pad bits), read, ih six.2 (by omega)]
    rfl

/-- The last group is what its bytes are written as. -/
theorem encode_of_decodeLast (short : bytes.length ≤ 4) (h : decodeLast offset bytes = .ok out) :
    encode out = bytes ∧ ∀ byte ∈ out, byte < 256 := by
  unfold decodeLast at h
  obtain ⟨⟨symbols, pads⟩, hs, made⟩ := Except.bind_eq_ok_iff.mp h
  obtain ⟨rfl, six, -⟩ := lastSymbols_eq_ok hs
  clear h hs
  rw [padded, List.length_append, List.length_map, List.length_replicate] at short
  dsimp only at made
  split at made
  · rename_i a b c d
    cases made
    simp only [List.forall_mem_cons] at six
    obtain ⟨ha, hb, hc, hd, -⟩ := six
    have none : pads = 0 := by
      simp only [List.length_cons, List.length_nil] at short
      omega
    subst none
    have whole := encode_threeBytes a hb hc hd []
    rw [List.append_nil] at whole
    exact ⟨whole, threeBytes_lt ha hb hc hd⟩
  · rename_i a b c
    split at made
    · cases made
    · split at made
      · cases made
      · rename_i one unused
        cases made
        simp only [List.forall_mem_cons] at six ⊢
        obtain ⟨ha, hb, hc, -⟩ := six
        obtain rfl : pads = 1 := by omega
        exact ⟨encode_two a hb hc (by omega), by omega, by omega, nofun⟩
  · rename_i a b
    split at made
    · cases made
    · split at made
      · cases made
      · rename_i two unused
        cases made
        simp only [List.forall_mem_cons] at six ⊢
        obtain ⟨ha, hb, -⟩ := six
        obtain rfl : pads = 2 := by omega
        exact ⟨encode_one a hb (by omega), by omega, nofun⟩
  · cases made

theorem decodeLast_encode (ne : bytes ≠ []) (few : bytes.length ≤ 3)
    (small : ∀ byte ∈ bytes, byte < 256) : decodeLast offset (encode bytes) = .ok bytes := by
  match bytes with
  | [] => exact absurd rfl ne
  | [x] =>
    have six : ∀ bits ∈ [x / 4, x % 4 * 16], bits < 64 := by
      simp only [List.forall_mem_cons] at small ⊢
      exact ⟨by omega, by omega, nofun⟩
    have unused : x % 4 * 16 % 16 = 0 := by omega
    have first : x / 4 * 4 + x % 4 * 16 / 16 = x := by omega
    have written : encode [x] = padded [x / 4, x % 4 * 16] 2 := rfl
    rw [written, decodeLast, lastSymbols_padded six (by simp)]
    simp only [bind, Except.bind, unused, first, ne_eq, not_true_eq_false, if_false]
  | [x, y] =>
    have six : ∀ bits ∈ [x / 4, x % 4 * 16 + y / 16, y % 16 * 4], bits < 64 := by
      simp only [List.forall_mem_cons] at small ⊢
      exact ⟨by omega, by omega, by omega, nofun⟩
    have hy : y < 256 := small y (by simp)
    have unused : y % 16 * 4 % 4 = 0 := by omega
    have first : x / 4 * 4 + (x % 4 * 16 + y / 16) / 16 = x := by omega
    have second : (x % 4 * 16 + y / 16) % 16 * 16 + y % 16 * 4 / 4 = y := by omega
    have written : encode [x, y] = padded [x / 4, x % 4 * 16 + y / 16, y % 16 * 4] 1 := rfl
    rw [written, decodeLast, lastSymbols_padded six (by simp)]
    simp only [bind, Except.bind, unused, first, second, ne_eq, not_true_eq_false, if_false]
  | [x, y, z] =>
    have six : ∀ bits ∈ [x / 4, x % 4 * 16 + y / 16, y % 16 * 4 + z / 64, z % 64], bits < 64 := by
      simp only [List.forall_mem_cons] at small ⊢
      exact ⟨by omega, by omega, by omega, by omega, nofun⟩
    have whole := @threeBytes_of_lt x y z (small y (by simp)) (small z (by simp))
    have written : encode [x, y, z] =
        padded [x / 4, x % 4 * 16 + y / 16, y % 16 * 4 + z / 64, z % 64] 0 := rfl
    rw [written, decodeLast, lastSymbols_padded six (.inl rfl)]
    exact congrArg Except.ok whole
  | _ :: _ :: _ :: _ :: rest =>
    simp only [List.length_cons] at few
    omega

end Last

/-! ## All groups -/

variable {offset : Nat} {text bytes : List Nat}

theorem encode_of_decodeFrom (h : decodeFrom offset text = .ok bytes) :
    encode bytes = text ∧ ∀ byte ∈ bytes, byte < 256 := by
  fun_induction decodeFrom offset text generalizing bytes with
  | case1 offset a b c d e rest ih =>
    obtain ⟨_, ha, h⟩ := Except.bind_eq_ok_iff.mp h
    obtain ⟨_, hb, h⟩ := Except.bind_eq_ok_iff.mp h
    obtain ⟨_, hc, h⟩ := Except.bind_eq_ok_iff.mp h
    obtain ⟨_, hd, h⟩ := Except.bind_eq_ok_iff.mp h
    obtain ⟨tail, ht, h⟩ := Except.bind_eq_ok_iff.mp h
    obtain ⟨same, small⟩ := ih ht
    rw [need_eq_ok_iff] at ha hb hc hd
    cases h
    constructor
    · rw [encode_threeBytes _ hb.1 hc.1 hd.1, same, ← ha.2, ← hb.2, ← hc.2, ← hd.2]
      rfl
    · intro byte hm
      rcases List.mem_append.mp hm with hm | hm
      · exact threeBytes_lt ha.1 hb.1 hc.1 hd.1 byte hm
      · exact small byte hm
  | case2 offset =>
    cases h
    exact ⟨rfl, nofun⟩
  | case3 offset text long _ =>
    refine encode_of_decodeLast ?_ h
    match text with
    | [] | [_] | [_, _] | [_, _, _] | [_, _, _, _] => simp
    | a :: b :: c :: d :: e :: rest => exact absurd rfl (long a b c d e rest)

theorem decodeFrom_of_short (ne : text ≠ []) (short : text.length ≤ 4) :
    decodeFrom offset text = decodeLast offset text := by
  match text with
  | [] => exact absurd rfl ne
  | [_] | [_, _] | [_, _, _] | [_, _, _, _] => rw [decodeFrom] <;> nofun
  | _ :: _ :: _ :: _ :: _ :: rest =>
    simp only [List.length_cons] at short
    omega

theorem decodeFrom_of_few (ne : bytes ≠ []) (few : bytes.length ≤ 3)
    (small : ∀ byte ∈ bytes, byte < 256) : decodeFrom offset (encode bytes) = .ok bytes := by
  have length := length_encode bytes
  have some_bytes := List.length_pos_iff.mpr ne
  have ne' : encode bytes ≠ [] := List.length_pos_iff.mp (by omega)
  rw [decodeFrom_of_short ne' (by omega), decodeLast_encode ne few small]

theorem decodeFrom_encode (small : ∀ byte ∈ bytes, byte < 256) :
    decodeFrom offset (encode bytes) = .ok bytes := by
  induction bytes using encode.induct generalizing offset with
  | case1 x y z rest ih =>
    cases rest with
    | nil => exact decodeFrom_of_few (by simp) (by simp) small
    | cons w rest =>
      simp only [List.forall_mem_cons] at small
      obtain ⟨hx, hy, hz, small⟩ := small
      have length := length_encode (w :: rest)
      have tail := @ih (offset + 4) (List.forall_mem_cons.mpr small)
      -- the group is not the last one, since something is written for the bytes behind it
      cases more : encode (w :: rest) with
      | nil =>
        rw [more, List.length_cons, List.length_nil] at length
        omega
      | cons e others =>
        have first : need offset (symbol (x / 4)) = .ok (x / 4) :=
          need_eq_ok_iff.mpr ⟨by omega, rfl⟩
        have second : need (offset + 1) (symbol (x % 4 * 16 + y / 16)) =
            .ok (x % 4 * 16 + y / 16) := need_eq_ok_iff.mpr ⟨by omega, rfl⟩
        have third : need (offset + 2) (symbol (y % 16 * 4 + z / 64)) =
            .ok (y % 16 * 4 + z / 64) := need_eq_ok_iff.mpr ⟨by omega, rfl⟩
        have fourth : need (offset + 3) (symbol (z % 64)) = .ok (z % 64) :=
          need_eq_ok_iff.mpr ⟨by omega, rfl⟩
        rw [more] at tail
        rw [encode, more, decodeFrom, first, second, third, fourth, tail]
        exact congrArg (fun front => Except.ok (front ++ w :: rest)) (threeBytes_of_lt hy hz)
  | case2 x y => exact decodeFrom_of_few (by simp) (by simp) small
  | case3 x => exact decodeFrom_of_few (by simp) (by simp) small
  | case4 => rfl

/-- A text decodes to the bytes that it is the encoding of, and only to them. -/
theorem decode_eq_ok_iff :
    decode text = .ok bytes ↔ encode bytes = text ∧ ∀ byte ∈ bytes, byte < 256 := by
  constructor
  · intro h
    unfold decode at h
    split at h
    · split at h
      · cases h
      · exact encode_of_decodeFrom h
    · rename_i none
      cases h
      rw [List.getLast?_eq_none_iff.mp none]
      exact ⟨rfl, nofun⟩
  · rintro ⟨rfl, small⟩
    have length := length_encode bytes
    unfold decode
    split
    · rw [if_neg fun odd => absurd odd.1 (by omega)]
      exact decodeFrom_encode small
    · rename_i none
      rw [List.getLast?_eq_none_iff.mp none, List.length_nil] at length
      rw [List.length_eq_zero_iff.mp (show bytes.length = 0 by omega)]

theorem length_of_decode (h : decode text = .ok bytes) :
    text.length = 4 * ((bytes.length + 2) / 3) := by
  rw [← (decode_eq_ok_iff.mp h).1, length_encode]

/-! ## No blanks -/

theorem blankRanges_apart : ∀ range ∈ Text.blankRanges, range.2 < 33 ∨ 128 ≤ range.1 := by decide

/-- A text with a blank in it does not decode. -/
theorem isBlank_of_decode {cs : List Char} (h : decode (Text.utf8 (String.ofList cs)) = .ok bytes) :
    ∀ c ∈ cs, Text.isBlank c = false := by
  intro c hc
  obtain ⟨byte, mem, value⟩ := Text.exists_byte hc
  obtain ⟨same, small⟩ := decode_eq_ok_iff.mp h
  obtain ⟨symbols, pads, written, -⟩ := exists_padded small
  rw [← same, written] at mem
  have bounds := bounds_of_mem_padded mem
  rw [Bool.eq_false_iff]
  intro blank
  obtain ⟨range, found, inside⟩ := List.any_eq_true.mp blank
  have apart := blankRanges_apart range found
  simp only [Bool.and_eq_true, decide_eq_true_eq] at inside
  omega

theorem trim_of_decode {cs : List Char} (h : decode (Text.utf8 (String.ofList cs)) = .ok bytes) :
    Text.trim cs = cs :=
  Text.trim_of_all (isBlank_of_decode h)

end CommandContract.Base64
