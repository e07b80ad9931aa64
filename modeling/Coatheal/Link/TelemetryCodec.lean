import Coatheal.Library.Zlib
import Mathlib.Data.Nat.Bitwise

/-!
# Compressed telemetry lines, onboard

A `Z1` line is the Base64 text of the raw DEFLATE stream of one line, compressed
against a dictionary that both ends hold. The module embeds the onboard encoder
and decoder and shows that decoding undoes encoding and accepts padded Base64
text only. Lines and dictionaries are bytes; the counters of zlib are 32 bits.
-/

namespace Coatheal.Link

open Coatheal.Library

/-- The bytes of a text in ASCII. -/
def ascii (text : String) : List UInt8 := text.toList.map fun c => UInt8.ofNat c.toNat

/-- What a compressed line starts with. -/
def kZ1Prefix : List UInt8 := ascii "Z1,"

/-- The letters of the 64 digits. -/
def kAlphabet : List UInt8 := ascii "ABCDEFGHIJKLMNOPQRSTUVWXYZabcdefghijklmnopqrstuvwxyz0123456789+/"

/-- The character that fills the last group up. -/
def pad : UInt8 := 0x3D

/-- `Base64Value`: the digit of a letter; `none` stands for the source's `-1`. -/
def base64Value (c : UInt8) : Option ℕ :=
  if 65 ≤ c.toNat ∧ c.toNat ≤ 90 then some (c.toNat - 65)
  else if 97 ≤ c.toNat ∧ c.toNat ≤ 122 then some (c.toNat - 97 + 26)
  else if 48 ≤ c.toNat ∧ c.toNat ≤ 57 then some (c.toNat - 48 + 52)
  else if c.toNat = 43 then some 62
  else if c.toNat = 47 then some 63
  else none

/-- The letter of the last six bits of a number. -/
def letter (v : ℕ) : UInt8 := kAlphabet.getD (v &&& 0x3F) 0

/-- `Base64Encode`. -/
def base64Encode : List UInt8 → List UInt8
  | b0 :: b1 :: b2 :: rest =>
    let v := b0.toNat <<< 16 ||| b1.toNat <<< 8 ||| b2.toNat
    letter (v >>> 18) :: letter (v >>> 12) :: letter (v >>> 6) :: letter v :: base64Encode rest
  | [b0, b1] =>
    let v := b0.toNat <<< 16 ||| b1.toNat <<< 8
    [letter (v >>> 18), letter (v >>> 12), letter (v >>> 6), pad]
  | [b0] =>
    let v := b0.toNat <<< 16
    [letter (v >>> 18), letter (v >>> 12), pad, pad]
  | [] => []

/-- The digits of a group from its place `k` on, and how many of its characters are padding. Padding is
taken only in the last group and only in the third and fourth place, and no digit behind it. -/
def readGroup (last : Bool) : ℕ → ℕ → List UInt8 → Option (List ℕ × ℕ)
  | _, padding, [] => some ([], padding)
  | k, padding, c :: rest =>
    if c = pad ∧ last = true ∧ k ≥ 2 then
      (readGroup last (k + 1) (padding + 1) rest).map fun group => (0 :: group.1, group.2)
    else if padding > 0 then none
    else
      match base64Value c with
      | none => none
      | some v => (readGroup last (k + 1) padding rest).map fun group => (v :: group.1, group.2)

/-- The bytes of a group. -/
def groupBytes (values : List ℕ) (padding : ℕ) : List UInt8 :=
  let triple := values.getD 0 0 <<< 18 ||| values.getD 1 0 <<< 12 ||| values.getD 2 0 <<< 6 ||| values.getD 3 0
  [UInt8.ofNat (triple >>> 16 &&& 0xFF)] ++ (if padding < 2 then [UInt8.ofNat (triple >>> 8 &&& 0xFF)] else []) ++
    if padding < 1 then [UInt8.ofNat (triple &&& 0xFF)] else []

/-- The bytes of groups of four. -/
def decodeGroups : List UInt8 → Option (List UInt8)
  | c0 :: c1 :: c2 :: c3 :: rest =>
    match readGroup rest.isEmpty 0 0 [c0, c1, c2, c3] with
    | none => none
    | some (values, padding) => (decodeGroups rest).map (groupBytes values padding ++ ·)
  | _ => some []

/-- `Base64Decode`. -/
def base64Decode (text : List UInt8) : Option (List UInt8) :=
  if text.length % 4 ≠ 0 then none else decodeGroups text

/-- What a size comes to in one of zlib's counters. -/
def counted (bytes : List UInt8) : List UInt8 := bytes.take (bytes.length % 2 ^ 32)

/-- `EncodeTelemetryLineZ1`; the empty line says that compression failed. -/
def encodeTelemetryLineZ1 (z : Zlib) (dictionary line : List UInt8) : List UInt8 :=
  match z.deflate dictionary (counted line) with
  | none => []
  | some compressed => kZ1Prefix ++ base64Encode compressed

/-- The chunk that output is taken in. -/
def chunkBytes : ℕ := 4096

/-- A chunk has room. -/
theorem chunkBytes_pos : 0 < chunkBytes := by decide

/-- `DecodeTelemetryLineZ1`. -/
def decodeTelemetryLineZ1 (z : Zlib) (dictionary wireLine : List UInt8) : Option (List UInt8) :=
  if !kZ1Prefix.isPrefixOf wireLine then none
  else
    match base64Decode (wireLine.drop kZ1Prefix.length) with
    | none => none
    | some compressed =>
      if compressed.isEmpty then none
      else z.inflateAll chunkBytes chunkBytes_pos (z.inflateInit dictionary (counted compressed))

/-- A text in the alphabet, filled up to groups of four by at most two padding characters at its end. -/
def PaddedBase64 (text : List UInt8) : Prop :=
  ∃ body padding, text = body ++ List.replicate padding pad ∧ padding ≤ 2 ∧ (∀ c ∈ body, c ∈ kAlphabet) ∧
    text.length % 4 = 0

/-- The digits of the letters are their places in the alphabet. -/
theorem base64Value_letter (v : ℕ) : base64Value (letter v) = some (v % 64) := by
  have htable : ∀ place < 64, base64Value (kAlphabet.getD place 0) = some place := by decide +kernel
  have hmask : v &&& 0x3F = v % 64 := Nat.and_two_pow_sub_one_eq_mod v 6
  rw [letter, hmask]
  exact htable _ (Nat.mod_lt v (by decide))

/-- A digit is below 64. -/
theorem base64Value_lt {c : UInt8} {v : ℕ} (h : base64Value c = some v) : v < 64 := by
  unfold base64Value at h
  grind

/-- A digit has one letter. -/
theorem base64Value_injective {c d : UInt8} {v : ℕ} (hc : base64Value c = some v) (hd : base64Value d = some v) :
    c = d := by
  rw [← UInt8.toNat_inj]
  unfold base64Value at hc hd
  grind

/-- The letter of a digit is in the alphabet. -/
theorem letter_mem {v : ℕ} (hv : v < 64) : letter v ∈ kAlphabet := by
  have hmask : v &&& 0x3F = v := (Nat.and_two_pow_sub_one_eq_mod v 6).trans (Nat.mod_eq_of_lt hv)
  have hplace : v < kAlphabet.length := lt_of_lt_of_eq hv rfl
  rw [letter, hmask, List.getD_eq_getElem _ _ hplace]
  exact List.getElem_mem hplace

/-- A character with a digit is the letter of the digit. -/
theorem letter_of_base64Value {c : UInt8} {v : ℕ} (h : base64Value c = some v) : letter v = c :=
  base64Value_injective ((base64Value_letter v).trans (congrArg some (Nat.mod_eq_of_lt (base64Value_lt h)))) h

/-- The letters are the characters with a digit. -/
theorem mem_kAlphabet_iff (c : UInt8) : c ∈ kAlphabet ↔ (base64Value c).isSome = true := by
  constructor
  · intro hc
    have hletters : ∀ b ∈ kAlphabet, (base64Value b).isSome = true := by decide +kernel
    exact hletters c hc
  · intro hc
    obtain ⟨v, hv⟩ := Option.isSome_iff_exists.mp hc
    exact letter_of_base64Value hv ▸ letter_mem (base64Value_lt hv)

/-- Padding is no letter. -/
theorem base64Value_pad : base64Value pad = none := by decide

/-- A letter is no padding. -/
theorem ne_pad_of_base64Value {c : UInt8} {v : ℕ} (h : base64Value c = some v) : c ≠ pad := by
  rintro rfl
  rw [base64Value_pad] at h
  exact absurd h (by simp)

/-- The bytes of a group, read off its four characters at once. -/
def quad (last : Bool) (c0 c1 c2 c3 : UInt8) : Option (List UInt8) :=
  match base64Value c0, base64Value c1, base64Value c2, base64Value c3 with
  | some v0, some v1, some v2, some v3 =>
    some [UInt8.ofNat (v0 * 4 + v1 / 16), UInt8.ofNat (v1 % 16 * 16 + v2 / 4), UInt8.ofNat (v2 % 4 * 64 + v3)]
  | some v0, some v1, some v2, none =>
    if last = true ∧ c3 = pad then some [UInt8.ofNat (v0 * 4 + v1 / 16), UInt8.ofNat (v1 % 16 * 16 + v2 / 4)]
    else none
  | some v0, some v1, none, _ =>
    if last = true ∧ c2 = pad ∧ c3 = pad then some [UInt8.ofNat (v0 * 4 + v1 / 16)] else none
  | _, _, _, _ => none

/-- The digits of a group side by side. -/
theorem triple_eq {v0 v1 v2 v3 : ℕ} (h1 : v1 < 64) (h2 : v2 < 64) (h3 : v3 < 64) :
    v0 <<< 18 ||| v1 <<< 12 ||| v2 <<< 6 ||| v3 = v0 * 2 ^ 18 + v1 * 2 ^ 12 + v2 * 2 ^ 6 + v3 := by
  have hfront : v0 <<< 18 ||| v1 <<< 12 = (v0 * 2 ^ 6 + v1) <<< 12 := by
    rw [← Nat.shiftLeft_add_eq_or_of_lt (by rw [Nat.shiftLeft_eq]; omega), Nat.shiftLeft_eq, Nat.shiftLeft_eq,
      Nat.shiftLeft_eq]
    omega
  have hmiddle : (v0 * 2 ^ 6 + v1) <<< 12 ||| v2 <<< 6 = (v0 * 2 ^ 12 + v1 * 2 ^ 6 + v2) <<< 6 := by
    rw [← Nat.shiftLeft_add_eq_or_of_lt (by rw [Nat.shiftLeft_eq]; omega), Nat.shiftLeft_eq, Nat.shiftLeft_eq,
      Nat.shiftLeft_eq]
    omega
  rw [hfront, hmiddle, ← Nat.shiftLeft_add_eq_or_of_lt h3, Nat.shiftLeft_eq]
  omega

/-- The bytes of the digits of a group, as many as the padding leaves. -/
theorem groupBytes_eq {v0 v1 v2 v3 : ℕ} (h0 : v0 < 64) (h1 : v1 < 64) (h2 : v2 < 64) (h3 : v3 < 64)
    (padding : ℕ) : groupBytes [v0, v1, v2, v3] padding =
      [UInt8.ofNat (v0 * 4 + v1 / 16)] ++ (if padding < 2 then [UInt8.ofNat (v1 % 16 * 16 + v2 / 4)] else []) ++
        if padding < 1 then [UInt8.ofNat (v2 % 4 * 64 + v3)] else [] := by
  have hmask : ∀ v : ℕ, v &&& 0xFF = v % 256 := fun v => Nat.and_two_pow_sub_one_eq_mod v 8
  have hfirst : (v0 * 2 ^ 18 + v1 * 2 ^ 12 + v2 * 2 ^ 6 + v3) / 2 ^ 16 % 256 = v0 * 4 + v1 / 16 := by omega
  have hsecond : (v0 * 2 ^ 18 + v1 * 2 ^ 12 + v2 * 2 ^ 6 + v3) / 2 ^ 8 % 256 = v1 % 16 * 16 + v2 / 4 := by omega
  have hthird : (v0 * 2 ^ 18 + v1 * 2 ^ 12 + v2 * 2 ^ 6 + v3) % 256 = v2 % 4 * 64 + v3 := by omega
  unfold groupBytes
  simp only [List.getD_cons_zero, List.getD_cons_succ, triple_eq h1 h2 h3, hmask, Nat.shiftRight_eq_div_pow, hfirst,
    hsecond, hthird]

/-- Reading a group character by character gives its bytes. -/
theorem readGroup_eq (last : Bool) (c0 c1 c2 c3 : UInt8) :
    (readGroup last 0 0 [c0, c1, c2, c3]).map (fun group => groupBytes group.1 group.2) =
      quad last c0 c1 c2 c3 := by
  cases h0 : base64Value c0 with
  | none => simp [readGroup, quad, h0]
  | some v0 =>
    cases h1 : base64Value c1 with
    | none => simp [readGroup, quad, h0, h1]
    | some v1 =>
      have hlt0 := base64Value_lt h0
      have hlt1 := base64Value_lt h1
      cases h2 : base64Value c2 with
      | none =>
        -- the third character is padding or the group is refused
        by_cases hpads : last = true ∧ c2 = pad ∧ c3 = pad
        · obtain ⟨rfl, rfl, rfl⟩ := hpads
          simp [readGroup, quad, h0, h1, base64Value_pad, groupBytes_eq hlt0 hlt1]
        · by_cases hthird : c2 = pad
          · cases last <;> simp_all [readGroup, quad]
          · simp [readGroup, quad, h0, h1, h2, hthird]
      | some v2 =>
        have hlt2 := base64Value_lt h2
        have hthird := ne_pad_of_base64Value h2
        cases h3 : base64Value c3 with
        | none =>
          by_cases hpads : last = true ∧ c3 = pad
          · obtain ⟨rfl, rfl⟩ := hpads
            simp [readGroup, quad, h0, h1, h2, base64Value_pad, hthird, groupBytes_eq hlt0 hlt1 hlt2]
          · have hnot : ¬ (c3 = pad ∧ last = true) := fun h => hpads h.symm
            simp [readGroup, quad, h0, h1, h2, h3, hthird, hpads, hnot]
        | some v3 =>
          have hlt3 := base64Value_lt h3
          have hfourth := ne_pad_of_base64Value h3
          simp [readGroup, quad, h0, h1, h2, h3, hthird, hfourth, groupBytes_eq hlt0 hlt1 hlt2 hlt3]

/-- Decoding goes group by group. -/
theorem base64Decode_cons (c0 c1 c2 c3 : UInt8) (rest : List UInt8) :
    base64Decode (c0 :: c1 :: c2 :: c3 :: rest) =
      (quad rest.isEmpty c0 c1 c2 c3).bind fun bytes => (base64Decode rest).map (bytes ++ ·) := by
  have hlength : (c0 :: c1 :: c2 :: c3 :: rest).length % 4 = rest.length % 4 := by
    simp only [List.length_cons]
    omega
  rw [base64Decode, hlength, base64Decode, ← readGroup_eq]
  by_cases hfour : rest.length % 4 ≠ 0
  · simp [hfour]
  · rw [if_neg hfour, if_neg hfour, decodeGroups.eq_def]
    dsimp only
    cases readGroup rest.isEmpty 0 0 [c0, c1, c2, c3] with
    | none => rfl
    | some group => rfl

/-- A text that does not fill its last group is refused. -/
theorem base64Decode_short {text : List UInt8} (h : text.length % 4 ≠ 0) : base64Decode text = none := by
  rw [base64Decode, if_pos h]

/-- The letters of a group of three bytes are read as these bytes. -/
theorem quad_three (last : Bool) (b0 b1 b2 : UInt8) {v : ℕ}
    (hv : v = b0.toNat <<< 16 ||| b1.toNat <<< 8 ||| b2.toNat) :
    quad last (letter (v >>> 18)) (letter (v >>> 12)) (letter (v >>> 6)) (letter v) = some [b0, b1, b2] := by
  have h0 := b0.toNat_lt
  have h1 := b1.toNat_lt
  have h2 := b2.toNat_lt
  have hsum : v = b0.toNat * 2 ^ 16 + b1.toNat * 2 ^ 8 + b2.toNat := by
    have hfront : b0.toNat <<< 16 ||| b1.toNat <<< 8 = (b0.toNat * 2 ^ 8 + b1.toNat) <<< 8 := by
      rw [← Nat.shiftLeft_add_eq_or_of_lt (by rw [Nat.shiftLeft_eq]; omega), Nat.shiftLeft_eq, Nat.shiftLeft_eq,
        Nat.shiftLeft_eq]
      omega
    rw [hv, hfront, ← Nat.shiftLeft_add_eq_or_of_lt h2, Nat.shiftLeft_eq]
    omega
  have hfirst : v / 2 ^ 18 % 64 * 4 + v / 2 ^ 12 % 64 / 16 = b0.toNat := by omega
  have hsecond : v / 2 ^ 12 % 64 % 16 * 16 + v / 2 ^ 6 % 64 / 4 = b1.toNat := by omega
  have hthird : v / 2 ^ 6 % 64 % 4 * 64 + v % 64 = b2.toNat := by omega
  simp only [quad, base64Value_letter, Nat.shiftRight_eq_div_pow, hfirst, hsecond, hthird, UInt8.ofNat_toNat]

/-- The letters of a last group of two bytes are read as these bytes. -/
theorem quad_two (b0 b1 : UInt8) {v : ℕ} (hv : v = b0.toNat <<< 16 ||| b1.toNat <<< 8) :
    quad true (letter (v >>> 18)) (letter (v >>> 12)) (letter (v >>> 6)) pad = some [b0, b1] := by
  have h0 := b0.toNat_lt
  have h1 := b1.toNat_lt
  have hsum : v = b0.toNat * 2 ^ 16 + b1.toNat * 2 ^ 8 := by
    rw [hv, ← Nat.shiftLeft_add_eq_or_of_lt (by rw [Nat.shiftLeft_eq]; omega), Nat.shiftLeft_eq, Nat.shiftLeft_eq]
  have hfirst : v / 2 ^ 18 % 64 * 4 + v / 2 ^ 12 % 64 / 16 = b0.toNat := by omega
  have hsecond : v / 2 ^ 12 % 64 % 16 * 16 + v / 2 ^ 6 % 64 / 4 = b1.toNat := by omega
  simp only [quad, base64Value_letter, base64Value_pad, Nat.shiftRight_eq_div_pow, hfirst, hsecond,
    UInt8.ofNat_toNat, and_self, if_true]

/-- The letters of a last group of one byte are read as this byte. -/
theorem quad_one (b0 : UInt8) {v : ℕ} (hv : v = b0.toNat <<< 16) :
    quad true (letter (v >>> 18)) (letter (v >>> 12)) pad pad = some [b0] := by
  have h0 := b0.toNat_lt
  have hsum : v = b0.toNat * 2 ^ 16 := by rw [hv, Nat.shiftLeft_eq]
  have hfirst : v / 2 ^ 18 % 64 * 4 + v / 2 ^ 12 % 64 / 16 = b0.toNat := by omega
  simp only [quad, base64Value_letter, base64Value_pad, Nat.shiftRight_eq_div_pow, hfirst, UInt8.ofNat_toNat,
    and_self, if_true]

/-- Decoding undoes encoding. -/
theorem base64Decode_base64Encode (bytes : List UInt8) : base64Decode (base64Encode bytes) = some bytes := by
  fun_induction base64Encode bytes with
  | case1 b0 b1 b2 rest v ih => rw [base64Decode_cons, quad_three _ b0 b1 b2 rfl, ih]; rfl
  | case2 b0 b1 v => rw [base64Decode_cons, List.isEmpty_nil, quad_two b0 b1 rfl]; rfl
  | case3 b0 v => rw [base64Decode_cons, List.isEmpty_nil, quad_one b0 rfl]; rfl
  | case4 => rfl

/-- The encoded text is ASCII without any blanks. -/
theorem mem_base64Encode {bytes : List UInt8} {c : UInt8} (h : c ∈ base64Encode bytes) :
    c ∈ kAlphabet ∨ c = pad := by
  have hletter : ∀ v, letter v ∈ kAlphabet := fun v => by
    rw [mem_kAlphabet_iff, base64Value_letter]
    rfl
  fun_induction base64Encode bytes <;> grind

/-- A group is read if it is four letters or, at the end, two or three and padding. -/
theorem quad_isSome_iff (last : Bool) (c0 c1 c2 c3 : UInt8) : (quad last c0 c1 c2 c3).isSome = true ↔
    (c0 ∈ kAlphabet ∧ c1 ∈ kAlphabet) ∧ ((c2 ∈ kAlphabet ∧ (c3 ∈ kAlphabet ∨ last = true ∧ c3 = pad)) ∨
      last = true ∧ c2 = pad ∧ c3 = pad) := by
  simp only [mem_kAlphabet_iff]
  cases h0 : base64Value c0 with
  | none => simp [quad, h0]
  | some v0 =>
    cases h1 : base64Value c1 with
    | none => simp [quad, h0, h1]
    | some v1 =>
      cases h2 : base64Value c2 with
      | none =>
        by_cases hpads : last = true ∧ c2 = pad ∧ c3 = pad
        · simp [quad, h0, h1, hpads, base64Value_pad]
        · simp [quad, h0, h1, h2, hpads]
      | some v2 =>
        have hthird := ne_pad_of_base64Value h2
        cases h3 : base64Value c3 with
        | none =>
          by_cases hpads : last = true ∧ c3 = pad
          · simp [quad, h0, h1, h2, hpads, base64Value_pad]
          · simp [quad, h0, h1, h2, h3, hpads, hthird]
        | some v3 => simp [quad, h0, h1, h2, h3]

/-- A padded text is a group and a padded text behind it. -/
theorem paddedBase64_cons (c0 c1 c2 c3 : UInt8) (rest : List UInt8) :
    PaddedBase64 (c0 :: c1 :: c2 :: c3 :: rest) ↔
      (quad rest.isEmpty c0 c1 c2 c3).isSome = true ∧ PaddedBase64 rest := by
  have hlength : (c0 :: c1 :: c2 :: c3 :: rest).length = rest.length + 4 := rfl
  rw [quad_isSome_iff]
  constructor
  · rintro ⟨body, padding, htext, hfew, hbody, hfour⟩
    rw [hlength] at hfour
    have htotal : rest.length + 4 = body.length + padding := by
      rw [← hlength, htext, List.length_append, List.length_replicate]
    match body, htext, hbody, htotal with
    | [], _, _, htotal | [_], _, _, htotal => simp only [List.length_nil, List.length_singleton] at htotal; omega
    | [a, b], htext, hbody, htotal =>
      have hpadding : padding = 2 := by simp only [List.length_cons, List.length_nil] at htotal; omega
      subst hpadding
      obtain ⟨rfl, rfl, rfl, rfl, rfl⟩ : c0 = a ∧ c1 = b ∧ c2 = pad ∧ c3 = pad ∧ rest = [] := by simpa using htext
      refine ⟨⟨⟨hbody _ (by simp), hbody _ (by simp)⟩, Or.inr ⟨rfl, rfl, rfl⟩⟩, [], 0, rfl, by omega, by simp, rfl⟩
    | [a, b, c], htext, hbody, htotal =>
      have hpadding : padding = 1 := by simp only [List.length_cons, List.length_nil] at htotal; omega
      subst hpadding
      obtain ⟨rfl, rfl, rfl, rfl, rfl⟩ : c0 = a ∧ c1 = b ∧ c2 = c ∧ c3 = pad ∧ rest = [] := by simpa using htext
      exact ⟨⟨⟨hbody _ (by simp), hbody _ (by simp)⟩, Or.inl ⟨hbody _ (by simp), Or.inr ⟨rfl, rfl⟩⟩⟩, [], 0, rfl,
        by omega, by simp, rfl⟩
    | a :: b :: c :: d :: more, htext, hbody, htotal =>
      obtain ⟨rfl, rfl, rfl, rfl, hrest⟩ : c0 = a ∧ c1 = b ∧ c2 = c ∧ c3 = d ∧
          rest = more ++ List.replicate padding pad := by simpa using htext
      exact ⟨⟨⟨hbody _ (by simp), hbody _ (by simp)⟩, Or.inl ⟨hbody _ (by simp), Or.inl (hbody _ (by simp))⟩⟩, more,
        padding, hrest, hfew, fun c hc => hbody c (by simp [hc]), by omega⟩
  · rintro ⟨⟨⟨h0, h1⟩, hlater⟩, body, padding, htext, hfew, hbody, hfour⟩
    have hmod : (c0 :: c1 :: c2 :: c3 :: rest).length % 4 = 0 := by rw [hlength]; omega
    rcases hlater with ⟨h2, h3 | ⟨hlast, rfl⟩⟩ | ⟨hlast, rfl, rfl⟩
    · refine ⟨c0 :: c1 :: c2 :: c3 :: body, padding, by rw [htext]; rfl, hfew, ?_, hmod⟩
      simp only [List.mem_cons, forall_eq_or_imp]
      exact ⟨h0, h1, h2, h3, hbody⟩
    · rw [List.isEmpty_iff] at hlast
      refine ⟨[c0, c1, c2], 1, by rw [hlast]; rfl, by omega, ?_, hmod⟩
      simp only [List.mem_cons, forall_eq_or_imp]
      exact ⟨h0, h1, h2, by simp⟩
    · rw [List.isEmpty_iff] at hlast
      refine ⟨[c0, c1], 2, by rw [hlast]; rfl, le_rfl, ?_, hmod⟩
      simp only [List.mem_cons, forall_eq_or_imp]
      exact ⟨h0, h1, by simp⟩

/-- Exactly the padded texts are decoded. -/
theorem base64Decode_isSome_iff : ∀ text : List UInt8, (base64Decode text).isSome = true ↔ PaddedBase64 text
  | [] => ⟨fun _ => ⟨[], 0, rfl, by omega, by simp, rfl⟩, fun _ => rfl⟩
  | c0 :: c1 :: c2 :: c3 :: rest => by
    rw [base64Decode_cons, paddedBase64_cons, ← base64Decode_isSome_iff rest]
    cases quad rest.isEmpty c0 c1 c2 c3 with
    | none => simp
    | some bytes => simp
  | [_] | [_, _] | [_, _, _] => by
    rw [base64Decode_short (by simp)]
    simp [PaddedBase64]

/-- Decoding makes no more of a text. -/
theorem length_base64Decode : ∀ {text bytes : List UInt8}, base64Decode text = some bytes →
    bytes.length ≤ text.length
  | [], bytes, h => by
    obtain rfl : [] = bytes := by simpa [base64Decode, decodeGroups] using h
    exact le_rfl
  | c0 :: c1 :: c2 :: c3 :: rest, bytes, h => by
    rw [base64Decode_cons] at h
    obtain ⟨front, hfront, hrest⟩ := Option.bind_eq_some_iff.mp h
    obtain ⟨back, hback, rfl⟩ := Option.map_eq_some_iff.mp hrest
    have hshort : front.length ≤ 4 := by
      unfold quad at hfront
      grind
    have hle := length_base64Decode hback
    simp only [List.length_append, List.length_cons]
    omega
  | [_], _, h | [_, _], _, h | [_, _, _], _, h => by
    rw [base64Decode_short (by simp)] at h
    exact absurd h (by simp)

/-- What fits zlib's counter is counted in full. -/
theorem counted_eq {bytes : List UInt8} (h : bytes.length < 2 ^ 32) : counted bytes = bytes := by
  rw [counted, Nat.mod_eq_of_lt h, List.take_length]

end Coatheal.Link
