import Coatheal.Library.PyText
import Coatheal.Library.Utf8
import Coatheal.Link.TelemetryCodec

/-!
# Compressed telemetry lines, on the ground

The ground station strips blanks from the payload, decodes it with the strict
Base64 check of its interpreter and inflates at most 64 KiB of it. The module
embeds that decoder and relates it to the onboard one: on every line the two
give the same bytes, but for the blanks, for the bound and for padding that
some releases of the interpreter let follow complete groups.
-/

namespace Coatheal.Ground

open Coatheal.Library Coatheal.Link

/-- Why a compressed line is refused. -/
inductive CodecError where
  | noDictionary
  | badBase64
  | inflateFailed
  | inflatesPast
  | truncated
deriving DecidableEq, Repr

/-- The longest line that is inflated. -/
def maxDecodedBytes : ℕ := 65536

/-- The digit of a letter, from the table of `binascii`. -/
def tableA2bBase64 (c : UInt8) : Option ℕ :=
  (ascii "ABCDEFGHIJKLMNOPQRSTUVWXYZabcdefghijklmnopqrstuvwxyz0123456789+/").findIdx? (· == c)

/-- The loop of `a2b_base64` in strict mode: the place in the group, the bits that are left over, the
padding seen in the group and whether padding has started. Releases with `excess` go on at padding
behind a complete group. -/
def a2bLoop (excess : Bool) : ℕ → ℕ → ℕ → Bool → List UInt8 → Option (List UInt8)
  | quadPos, _, _, _, [] => if quadPos = 0 then some [] else none
  | quadPos, leftchar, pads, paddingStarted, c :: rest =>
    if c = pad then
      if quadPos = 0 ∧ excess = false then none
      else if quadPos ≥ 2 ∧ quadPos + (pads + 1) ≥ 4 then if rest.isEmpty then some [] else none
      else a2bLoop excess quadPos leftchar (if quadPos ≥ 2 then pads + 1 else pads) true rest
    else
      match tableA2bBase64 c with
      | none => none
      | some v =>
        if paddingStarted then none
        else
          match quadPos with
          | 0 => a2bLoop excess 1 v 0 false rest
          | 1 => (a2bLoop excess 2 (v &&& 0x0F) 0 false rest).map (UInt8.ofNat (leftchar <<< 2 ||| v >>> 4) :: ·)
          | 2 => (a2bLoop excess 3 (v &&& 0x03) 0 false rest).map (UInt8.ofNat (leftchar <<< 4 ||| v >>> 2) :: ·)
          | _ => (a2bLoop excess 0 0 0 false rest).map (UInt8.ofNat (leftchar <<< 6 ||| v) :: ·)

/-- `binascii.a2b_base64` in strict mode; `none` stands for `binascii.Error`. -/
def a2bBase64 (excess : Bool) (data : List UInt8) : Option (List UInt8) :=
  if data.head? = some pad then none else a2bLoop excess 0 0 0 false data

/-- `base64.b64decode` with validation; text beyond ASCII is a `ValueError`. -/
def b64decode (excess : Bool) (text : List Char) : Option (List UInt8) :=
  if text.all fun c => decide (c.toNat < 0x80) then a2bBase64 excess (text.map fun c => UInt8.ofNat c.toNat)
  else none

/-- `decode_line`. -/
def decodeLine (excess : Bool) (z : Zlib) (dictionary : Option (List UInt8)) (line : List Char) :
    Except CodecError (List Char) :=
  if !"Z1,".toList.isPrefixOf line then .ok line
  else
    match dictionary with
    | none => .error .noDictionary
    | some zdict =>
      match b64decode excess (PyText.strip (line.drop 3)) with
      | none => .error .badBase64
      | some raw =>
        match z.decompress maxDecodedBytes (z.inflateInit zdict raw) with
        | none => .error .inflateFailed
        | some inflated =>
          if inflated.unconsumedTail then .error .inflatesPast
          else if !inflated.eof then .error .truncated
          else .ok (Utf8.decodeReplace inflated.data)

/-- Padding taken off complete groups. -/
def dropExcess {α : Type} [DecidableEq α] (padding : α) (text : List α) : List α :=
  let letters := text.takeWhile fun c => decide (c ≠ padding)
  if decide (letters.length % 4 = 0) && (text.drop letters.length).all fun c => decide (c = padding) then letters
  else text

/-- What the interpreter reads of a payload. -/
def plainPayload (excess : Bool) (payload : List Char) : List Char :=
  if excess then dropExcess '=' (PyText.strip payload) else PyText.strip payload

/-- Both tables give the letters the same digits. -/
theorem tableA2bBase64_eq (c : UInt8) : tableA2bBase64 c = base64Value c := by
  change kAlphabet.findIdx? (· == c) = base64Value c
  cases hdigit : base64Value c with
  | none =>
    refine List.findIdx?_eq_none_iff.mpr fun b hb => beq_false_of_ne ?_
    rintro rfl
    rw [mem_kAlphabet_iff, hdigit] at hb
    cases hb
  | some v =>
    have hv := base64Value_lt hdigit
    have hplace : ∀ {place : ℕ} (h : place < kAlphabet.length), kAlphabet[place] = letter place := by
      intro place h
      have hmask : place &&& 0x3F = place := (Nat.and_two_pow_sub_one_eq_mod place 6).trans (Nat.mod_eq_of_lt h)
      rw [letter, hmask, List.getD_eq_getElem _ _ h]
    have hin : v < kAlphabet.length := lt_of_lt_of_eq hv rfl
    refine List.findIdx?_eq_some_iff_getElem.mpr
      ⟨hin, beq_iff_eq.mpr ((hplace hin).trans (letter_of_base64Value hdigit)), ?_⟩
    intro place hearlier hsame
    have hbelow : place < 64 := hearlier.trans hv
    have hletter : letter place = c := (hplace (hearlier.trans hin)).symm.trans (beq_iff_eq.mp hsame)
    have hvalue := base64Value_letter place
    rw [hletter, hdigit, Nat.mod_eq_of_lt hbelow] at hvalue
    exact absurd (Option.some.inj hvalue) hearlier.ne'

/-- A group whose first two characters are not both letters is never completed. -/
theorem a2bLoop_padded (excess : Bool) (leftchar pads : ℕ) (rest : List UInt8) :
    a2bLoop excess 1 leftchar pads true rest = none := by
  induction rest generalizing pads with
  | nil => rfl
  | cons c rest ih =>
    rw [a2bLoop]
    split
    · rw [if_neg (by simp), if_neg (by simp), if_neg (by simp)]
      exact ih pads
    · split
      · rfl
      · rfl

/-- From a letter on, the loop reads a group as its four characters give it, and then the rest. -/
theorem a2bLoop_cons (excess : Bool) {c0 : UInt8} (h : c0 ≠ pad) (c1 c2 c3 : UInt8) (rest : List UInt8) :
    a2bLoop excess 0 0 0 false (c0 :: c1 :: c2 :: c3 :: rest) =
      (quad rest.isEmpty c0 c1 c2 c3).bind fun bytes => (a2bLoop excess 0 0 0 false rest).map (bytes ++ ·) := by
  cases h0 : base64Value c0 with
  | none => simp [a2bLoop, tableA2bBase64_eq, quad, h, h0]
  | some v0 =>
    cases h1 : base64Value c1 with
    | none =>
      by_cases hpad : c1 = pad
      · have hnone := a2bLoop_padded excess v0 0 (c2 :: c3 :: rest)
        rw [a2bLoop, if_neg h, tableA2bBase64_eq, h0]
        dsimp only
        rw [if_neg (by simp), a2bLoop, if_pos hpad, if_neg (by simp), if_neg (by simp), if_neg (by simp), hnone]
        simp [quad, h0, hpad, base64Value_pad]
      · simp [a2bLoop, tableA2bBase64_eq, quad, h, h0, h1, hpad]
    | some v1 =>
      have hlt0 := base64Value_lt h0
      have hlt1 := base64Value_lt h1
      have hsecond := ne_pad_of_base64Value h1
      have hfirst : v0 <<< 2 ||| v1 >>> 4 = v0 * 4 + v1 / 16 := by
        rw [← Nat.shiftLeft_add_eq_or_of_lt (by rw [Nat.shiftRight_eq_div_pow]; omega), Nat.shiftLeft_eq,
          Nat.shiftRight_eq_div_pow]
      cases h2 : base64Value c2 with
      | none =>
        by_cases hpad : c2 = pad
        · subst hpad
          cases h3 : base64Value c3 with
          | none =>
            by_cases hpads : c3 = pad
            · subst hpads
              cases rest with
              | nil => simp [a2bLoop, tableA2bBase64_eq, quad, h, h0, h1, hsecond, base64Value_pad, hfirst]
              | cons c more => simp [a2bLoop, tableA2bBase64_eq, quad, h, h0, h1, hsecond, base64Value_pad]
            · simp [a2bLoop, tableA2bBase64_eq, quad, h, h0, h1, h3, hsecond, base64Value_pad, hpads]
          | some v3 =>
            have hfourth := ne_pad_of_base64Value h3
            simp [a2bLoop, tableA2bBase64_eq, quad, h, h0, h1, h3, hsecond, base64Value_pad, hfourth]
        · simp [a2bLoop, tableA2bBase64_eq, quad, h, h0, h1, h2, hsecond, hpad]
      | some v2 =>
        have hlt2 := base64Value_lt h2
        have hthird := ne_pad_of_base64Value h2
        have hmiddle : (v1 &&& 0x0F) <<< 4 ||| v2 >>> 2 = v1 % 16 * 16 + v2 / 4 := by
          have hmask : v1 &&& 0x0F = v1 % 16 := Nat.and_two_pow_sub_one_eq_mod v1 4
          rw [hmask, ← Nat.shiftLeft_add_eq_or_of_lt (by rw [Nat.shiftRight_eq_div_pow]; omega), Nat.shiftLeft_eq,
            Nat.shiftRight_eq_div_pow]
        cases h3 : base64Value c3 with
        | none =>
          by_cases hpads : c3 = pad
          · subst hpads
            cases rest with
            | nil =>
              simp [a2bLoop, tableA2bBase64_eq, quad, h, h0, h1, h2, hsecond, hthird, base64Value_pad, hfirst, hmiddle]
            | cons c more => simp [a2bLoop, tableA2bBase64_eq, quad, h, h0, h1, h2, hsecond, hthird, base64Value_pad]
          · simp [a2bLoop, tableA2bBase64_eq, quad, h, h0, h1, h2, h3, hsecond, hthird, hpads]
        | some v3 =>
          have hlt3 := base64Value_lt h3
          have hfourth := ne_pad_of_base64Value h3
          have hlast : (v2 &&& 0x03) <<< 6 ||| v3 = v2 % 4 * 64 + v3 := by
            have hmask : v2 &&& 0x03 = v2 % 4 := Nat.and_two_pow_sub_one_eq_mod v2 2
            rw [hmask, ← Nat.shiftLeft_add_eq_or_of_lt hlt3, Nat.shiftLeft_eq]
          simp [a2bLoop, tableA2bBase64_eq, quad, h, h0, h1, h2, h3, hsecond, hthird, hfourth, hfirst, hmiddle, hlast,
            Function.comp_def]

/-- Where no padding may follow complete groups, the loop decodes as the onboard does. -/
theorem a2bLoop_eq : ∀ data : List UInt8, a2bLoop false 0 0 0 false data = base64Decode data
  | [] => rfl
  | c0 :: c1 :: c2 :: c3 :: rest => by
    rw [base64Decode_cons, ← a2bLoop_eq rest]
    by_cases hpad : c0 = pad
    · simp [a2bLoop, quad, hpad, base64Value_pad]
    · exact a2bLoop_cons false hpad c1 c2 c3 rest
  | [c0] | [c0, c1] | [c0, c1, c2] => by
    rw [base64Decode_short (by simp)]
    simp only [a2bLoop]
    grind

/-- Behind padding at complete groups the loop takes padding only. -/
theorem a2bLoop_excess (leftchar pads : ℕ) (rest : List UInt8) :
    a2bLoop true 0 leftchar pads true rest = if rest.all (fun c => decide (c = pad)) then some [] else none := by
  induction rest with
  | nil => rfl
  | cons c rest ih =>
    rw [a2bLoop]
    by_cases hpad : c = pad
    · rw [if_pos hpad, if_neg (by simp), if_neg (by simp), if_neg (by simp), ih]
      simp [hpad]
    · rw [if_neg hpad]
      cases tableA2bBase64 c with
      | none => simp [hpad]
      | some v => simp [hpad]

/-- Taking padding off complete groups leaves a group of letters alone. -/
theorem dropExcess_cons {α : Type} [DecidableEq α] {padding c0 c1 c2 c3 : α} (h0 : c0 ≠ padding) (h1 : c1 ≠ padding)
    (h2 : c2 ≠ padding) (h3 : c3 ≠ padding) (rest : List α) :
    dropExcess padding (c0 :: c1 :: c2 :: c3 :: rest) = c0 :: c1 :: c2 :: c3 :: dropExcess padding rest := by
  have hlength : ((rest.takeWhile fun c => decide (c ≠ padding)).length + 1 + 1 + 1 + 1) % 4 =
      (rest.takeWhile fun c => decide (c ≠ padding)).length % 4 := by omega
  have htake : ((c0 :: c1 :: c2 :: c3 :: rest).takeWhile fun c => decide (c ≠ padding)) =
      c0 :: c1 :: c2 :: c3 :: rest.takeWhile fun c => decide (c ≠ padding) := by
    simp [h0, h1, h2, h3]
  unfold dropExcess
  rw [htake]
  dsimp only
  rw [List.length_cons, List.length_cons, List.length_cons, List.length_cons, hlength]
  simp only [List.drop_succ_cons]
  split
  · rfl
  · rfl

/-- Padding is not taken off a group that it completes. -/
theorem dropExcess_partial {α : Type} [DecidableEq α] {padding : α} {text : List α}
    (h : (text.takeWhile fun c => decide (c ≠ padding)).length % 4 ≠ 0) : dropExcess padding text = text := by
  unfold dropExcess
  dsimp only
  rw [decide_eq_false h, Bool.false_and]
  rfl

/-- A text that starts with padding is refused. -/
theorem base64Decode_pad : ∀ rest : List UInt8, base64Decode (pad :: rest) = none
  | c1 :: c2 :: c3 :: rest => by
    rw [base64Decode_cons]
    simp [quad, base64Value_pad]
  | [] | [_] | [_, _] => base64Decode_short (by simp)

/-- Padding in front is taken off if it is all there is. -/
theorem dropExcess_head {α : Type} [DecidableEq α] (padding : α) (rest : List α) :
    dropExcess padding (padding :: rest) =
      if rest.all (fun c => decide (c = padding)) = true then [] else padding :: rest := by
  have hnone : (padding :: rest).takeWhile (fun c => decide (c ≠ padding)) = [] := by simp
  unfold dropExcess
  rw [hnone]
  simp

/-- Letters are read alike in the last group and in any other. -/
theorem quad_last {c2 c3 : UInt8} (h2 : c2 ≠ pad) (h3 : c3 ≠ pad) (last other : Bool) (c0 c1 : UInt8) :
    quad last c0 c1 c2 c3 = quad other c0 c1 c2 c3 := by
  simp [quad, h2, h3]

/-- Padding ends a group that is not the last one. -/
theorem quad_none {c0 c1 c2 c3 : UInt8} (h : c1 = pad ∨ c2 = pad ∨ c3 = pad) : quad false c0 c1 c2 c3 = none := by
  unfold quad
  rcases h with rfl | rfl | rfl
  · rw [base64Value_pad]
    cases base64Value c0 <;> rfl
  · rw [base64Value_pad]
    cases base64Value c0 <;> cases base64Value c1 <;> simp
  · rw [base64Value_pad]
    cases base64Value c0 <;> cases base64Value c1 <;> cases base64Value c2 <;> simp

/-- Where padding may follow complete groups, the loop decodes what is left without it. -/
theorem a2bLoop_dropExcess (data : List UInt8) :
    a2bLoop true 0 0 0 false data = base64Decode (dropExcess pad data) := by
  by_cases hhead : data.head? = some pad
  · obtain ⟨rest, rfl⟩ := List.head?_eq_some_iff.mp hhead
    rw [a2bLoop, if_pos rfl, if_neg (by simp), if_neg (by simp), if_neg (by simp), a2bLoop_excess, dropExcess_head]
    split
    · rfl
    · rw [base64Decode_pad]
  · match data, hhead with
    | [], _ => rfl
    | c0 :: c1 :: c2 :: c3 :: rest, hhead =>
      have h0 : c0 ≠ pad := by simpa using hhead
      have ih := a2bLoop_dropExcess rest
      by_cases hpads : c1 = pad ∨ c2 = pad ∨ c3 = pad
      · have hsame : dropExcess pad (c0 :: c1 :: c2 :: c3 :: rest) = c0 :: c1 :: c2 :: c3 :: rest :=
          dropExcess_partial (by simp only [List.takeWhile_cons]; grind)
        rw [a2bLoop_cons true h0, hsame, base64Decode_cons]
        cases rest with
        | nil => rfl
        | cons c more => rw [List.isEmpty_cons, quad_none hpads]; rfl
      · obtain ⟨h1, h2, h3⟩ : c1 ≠ pad ∧ c2 ≠ pad ∧ c3 ≠ pad := by simpa using hpads
        rw [a2bLoop_cons true h0, ih, dropExcess_cons h0 h1 h2 h3, base64Decode_cons,
          quad_last h2 h3 rest.isEmpty (dropExcess pad rest).isEmpty]
    | [c0], hhead | [c0, c1], hhead | [c0, c1, c2], hhead =>
      have h0 : c0 ≠ pad := by simpa using hhead
      rw [ dropExcess_partial (by simp only [List.takeWhile_cons, List.takeWhile_nil]; grind), base64Decode_short (by simp)]
      simp only [a2bLoop]
      grind
termination_by data.length

/-- The interpreter decodes what is left of a payload as the onboard does. -/
theorem a2bBase64_eq (excess : Bool) (data : List UInt8) : a2bBase64 excess data =
    if data.head? = some pad then none
    else base64Decode (if excess then dropExcess pad data else data) := by
  unfold a2bBase64
  split
  · rfl
  · cases excess with
    | false => exact a2bLoop_eq data
    | true => exact a2bLoop_dropExcess data

/-- Padding is taken off a text before or after its characters become bytes. -/
theorem dropExcess_map {text : List Char} (h : ∀ c ∈ text, c.toNat < 0x80) :
    dropExcess pad (text.map fun c => UInt8.ofNat c.toNat) = (dropExcess '=' text).map fun c => UInt8.ofNat c.toNat := by
  have hpad : ∀ c ∈ text, decide (UInt8.ofNat c.toNat = pad) = decide (c = '=') := by
    intro c hc
    have hsmall := h c hc
    have hbyte : (UInt8.ofNat c.toNat).toNat = c.toNat := UInt8.toNat_ofNat_of_lt' (by change _ < 256; omega)
    rw [decide_eq_decide, ← UInt8.toNat_inj, hbyte, Char.ext_iff, ← UInt32.toNat_inj]
    rfl
  have htake : (text.map fun c => UInt8.ofNat c.toNat).takeWhile (fun c => decide (c ≠ pad)) =
      (text.takeWhile fun c => decide (c ≠ '=')).map fun c => UInt8.ofNat c.toNat := by
    clear h
    induction text with
    | nil => rfl
    | cons c rest ih =>
      have hrest := ih fun d hd => hpad d (List.mem_cons_of_mem c hd)
      have hc : decide (UInt8.ofNat c.toNat ≠ pad) = decide (c ≠ '=') := by
        rw [decide_not, decide_not, hpad c List.mem_cons_self]
      rw [List.map_cons, List.takeWhile_cons, List.takeWhile_cons, hc, hrest]
      split
      · rfl
      · rfl
  have hall : ∀ count, ((text.map fun c => UInt8.ofNat c.toNat).drop count).all (fun c => decide (c = pad)) =
      (text.drop count).all fun c => decide (c = '=') := by
    intro count
    rw [← List.map_drop, List.all_map, Bool.eq_iff_iff, List.all_eq_true, List.all_eq_true]
    refine forall₂_congr fun c hc => ?_
    rw [Function.comp_apply, hpad c (List.mem_of_mem_drop hc)]
  unfold dropExcess
  dsimp only
  rw [htake, List.length_map, hall]
  split
  · rfl
  · rfl

/-- Everything in a text that is decoded is ASCII. -/
theorem ascii_of_base64Decode {text bytes : List UInt8} (h : base64Decode text = some bytes) :
    ∀ b ∈ text, b.toNat < 0x80 := by
  have hsome : (base64Decode text).isSome = true := by rw [h]; rfl
  obtain ⟨body, padding, rfl, -, hbody, -⟩ := (base64Decode_isSome_iff text).mp hsome
  have hletter : ∀ b ∈ kAlphabet, b.toNat < 0x80 := by decide +kernel
  intro b hb
  rcases List.mem_append.mp hb with hin | hin
  · exact hletter b (hbody b hin)
  · rw [List.eq_of_mem_replicate hin]
    decide

/-- A text with a character beyond ASCII is no Base64. -/
theorem base64Decode_of_not_ascii {text : List Char} {c : Char} (hc : c ∈ text) (h : 0x80 ≤ c.toNat) :
    base64Decode (Utf8.encode text) = none := by
  obtain ⟨b, hb, hbeyond⟩ := Utf8.exists_byte_of_not_ascii hc h
  by_contra hsome
  obtain ⟨bytes, hbytes⟩ := Option.ne_none_iff_exists'.mp hsome
  exact absurd (ascii_of_base64Decode hbytes b hb) (not_lt.mpr hbeyond)

/-- Blanks and padding are all that is taken off a payload. -/
theorem length_plainPayload (excess : Bool) (payload : List Char) :
    (plainPayload excess payload).length ≤ payload.length := by
  obtain ⟨front, back, hpayload, -⟩ := PyText.exists_strip payload
  have hstrip : (PyText.strip payload).length ≤ payload.length := by
    conv_rhs => rw [hpayload]
    simp only [List.length_append]
    omega
  refine le_trans ?_ hstrip
  unfold plainPayload dropExcess
  split
  · dsimp only
    split
    · exact (List.takeWhile_prefix _).length_le
    · exact le_rfl
  · exact le_rfl

/-- A character other than padding stays in a payload. -/
theorem mem_plainPayload (excess : Bool) {payload : List Char} {c : Char} (hc : c ∈ PyText.strip payload)
    (hother : c ≠ '=') : c ∈ plainPayload excess payload := by
  unfold plainPayload dropExcess
  split
  · dsimp only
    split
    case isTrue hall =>
      rw [Bool.and_eq_true, List.all_eq_true] at hall
      rw [List.prefix_iff_eq_take.mp (List.takeWhile_prefix _)]
      rw [← List.take_append_drop
        (List.takeWhile (fun c => decide (c ≠ '=')) (PyText.strip payload)).length (PyText.strip payload)] at hc
      rcases List.mem_append.mp hc with hin | hin
      · exact hin
      · exact absurd (of_decide_eq_true (hall.2 c hin)) hother
    case isFalse => exact hc
  · exact hc

/-- The interpreter reads a payload as the onboard reads what is left of it; where it refuses what the
onboard does not, that is empty. -/
theorem b64decode_plain (excess : Bool) (payload : List Char) :
    b64decode excess (PyText.strip payload) = base64Decode (Utf8.encode (plainPayload excess payload)) ∨
      b64decode excess (PyText.strip payload) = none ∧
        base64Decode (Utf8.encode (plainPayload excess payload)) = some [] := by
  unfold b64decode
  by_cases hascii : ∀ c ∈ PyText.strip payload, c.toNat < 0x80
  · have hall : ((PyText.strip payload).all fun c => decide (c.toNat < 0x80)) = true :=
      List.all_eq_true.mpr fun c hc => decide_eq_true (hascii c hc)
    have hplain : ∀ c ∈ plainPayload excess payload, c.toNat < 0x80 := by
      intro c hc
      refine hascii c ?_
      unfold plainPayload dropExcess at hc
      split at hc
      · dsimp only at hc
        split at hc
        · exact (List.takeWhile_prefix _).mem hc
        · exact hc
      · exact hc
    have hbytes : (if excess then dropExcess pad ((PyText.strip payload).map fun c => UInt8.ofNat c.toNat)
        else (PyText.strip payload).map fun c => UInt8.ofNat c.toNat) = Utf8.encode (plainPayload excess payload) := by
      rw [Utf8.encode_of_ascii hplain, plainPayload]
      split
      · rw [dropExcess_map hascii]
      · rfl
    rw [if_pos hall, a2bBase64_eq, hbytes]
    split
    case isTrue hhead =>
      -- padding in front is refused; taken off, it leaves nothing
      obtain ⟨rest, hrest⟩ := List.head?_eq_some_iff.mp hhead
      rw [← hbytes, hrest]
      cases excess with
      | false =>
        left
        rw [if_neg (by simp), base64Decode_pad]
      | true =>
        rw [if_pos rfl, dropExcess_head]
        split
        · exact Or.inr ⟨rfl, rfl⟩
        · rw [base64Decode_pad]
          exact Or.inl rfl
    case isFalse => exact Or.inl rfl
  · obtain ⟨c, hc, hbeyond⟩ : ∃ c ∈ PyText.strip payload, 0x80 ≤ c.toNat := by
      by_contra hnone
      exact hascii fun c hc => not_le.mp fun hle => hnone ⟨c, hc, hle⟩
    have hother : c ≠ '=' := by
      rintro rfl
      exact absurd hbeyond (by decide)
    left
    rw [if_neg fun hall => absurd (of_decide_eq_true (List.all_eq_true.mp hall c hc)) (not_lt.mpr hbeyond),
      base64Decode_of_not_ascii (mem_plainPayload excess hc hother) hbeyond]

/-- The ground's decoder, step after step. -/
theorem decodeLine_toOption (excess : Bool) (z : Zlib) (dictionary : List UInt8) (payload : List Char) :
    (decodeLine excess z (some dictionary) ("Z1,".toList ++ payload)).toOption =
      (b64decode excess (PyText.strip payload)).bind fun raw =>
        (if z.ending (z.inflateInit dictionary raw) = .finished ∧
            (z.holds (z.inflateInit dictionary raw)).length ≤ maxDecodedBytes then
          some (z.holds (z.inflateInit dictionary raw)) else none).map Utf8.decodeReplace := by
  have hdrop : ("Z1,".toList ++ payload).drop 3 = payload := rfl
  have hstarts : "Z1,".toList.isPrefixOf ("Z1,".toList ++ payload) = true :=
    List.isPrefixOf_iff_prefix.mpr (List.prefix_append _ _)
  unfold decodeLine
  rw [hstarts, hdrop]
  dsimp only [Bool.not_true]
  rw [if_neg (by simp)]
  cases b64decode excess (PyText.strip payload) with
  | none => rfl
  | some raw =>
    dsimp only [Option.bind_some]
    rw [← z.decompress_eof (by decide)]
    cases z.decompress maxDecodedBytes (z.inflateInit dictionary raw) with
    | none => rfl
    | some inflated =>
      obtain ⟨data, tail, eof⟩ := inflated
      cases tail <;> cases eof <;> rfl

/-- On every compressed line the ground's decoder makes the onboard's bytes of what is left of the payload,
if they are within the bound. -/
theorem decodeLine_eq (excess : Bool) (z : Zlib) (dictionary : List UInt8) {payload : List Char}
    (h : payload.length < 2 ^ 32) :
    (decodeLine excess z (some dictionary) ("Z1,".toList ++ payload)).toOption =
      (decodeTelemetryLineZ1 z dictionary (Utf8.encode ("Z1,".toList ++ plainPayload excess payload))).bind fun line =>
        if line.length ≤ maxDecodedBytes then some (Utf8.decodeReplace line) else none := by
  have hempty : (if z.ending (z.inflateInit dictionary []) = .finished then some (z.holds (z.inflateInit dictionary []))
      else none) = none := by
    rw [(z.holds_noInput dictionary).2, if_neg (by decide)]
  have hprefix : Utf8.encode ("Z1,".toList ++ plainPayload excess payload) =
      kZ1Prefix ++ Utf8.encode (plainPayload excess payload) := by
    rw [Utf8.encode, List.flatMap_append]
    rfl
  have honboard : decodeTelemetryLineZ1 z dictionary (kZ1Prefix ++ Utf8.encode (plainPayload excess payload)) =
      (base64Decode (Utf8.encode (plainPayload excess payload))).bind fun raw =>
        if z.ending (z.inflateInit dictionary raw) = .finished then some (z.holds (z.inflateInit dictionary raw))
        else none := by
    have hstarts : kZ1Prefix.isPrefixOf (kZ1Prefix ++ Utf8.encode (plainPayload excess payload)) = true :=
      List.isPrefixOf_iff_prefix.mpr (List.prefix_append _ _)
    unfold decodeTelemetryLineZ1
    rw [hstarts, List.drop_left, Bool.not_true, if_neg (by simp)]
    cases hraw : base64Decode (Utf8.encode (plainPayload excess payload)) with
    | none => rfl
    | some raw =>
      rw [Option.bind_some]
      cases raw with
      | nil =>
        dsimp only
        rw [List.isEmpty_nil, if_pos rfl, hempty]
      | cons byte more =>
        have hshort : (byte :: more).length < 2 ^ 32 := by
          have hascii : ∀ c ∈ plainPayload excess payload, c.toNat < 0x80 := by
            intro c hc
            by_contra hbeyond
            rw [base64Decode_of_not_ascii hc (not_lt.mp hbeyond)] at hraw
            exact absurd hraw (by simp)
          have hle := length_base64Decode hraw
          rw [Utf8.encode_of_ascii hascii, List.length_map] at hle
          have hplain := length_plainPayload excess payload
          omega
        dsimp only
        rw [List.isEmpty_cons, if_neg (by simp), counted_eq hshort, z.inflateAll_eq]
  rw [ hprefix, honboard, decodeLine_toOption]
  rcases b64decode_plain excess payload with hsame | ⟨hnone, hnothing⟩
  · rw [hsame]
    cases base64Decode (Utf8.encode (plainPayload excess payload)) with
    | none => rfl
    | some raw =>
      rw [Option.bind_some, Option.bind_some]
      by_cases hfinished : z.ending (z.inflateInit dictionary raw) = .finished
      · rw [if_pos hfinished, Option.bind_some]
        by_cases hfits : (z.holds (z.inflateInit dictionary raw)).length ≤ maxDecodedBytes
        · rw [if_pos ⟨hfinished, hfits⟩, if_pos hfits, Option.map_some]
        · rw [if_neg fun h => hfits h.2, if_neg hfits, Option.map_none]
      · rw [if_neg fun h => hfinished h.1, if_neg hfinished]
        rfl
  · rw [hnone, hnothing, Option.bind_some, hempty]
    rfl

/-- Inflating undoes deflating. -/
def Inverts (z : Zlib) (dictionary : List UInt8) : Prop :=
  ∀ line compressed, z.deflate dictionary line = some compressed →
    z.ending (z.inflateInit dictionary compressed) = .finished ∧
      z.holds (z.inflateInit dictionary compressed) = line

/-- Decoding Base64 undoes encoding and takes exactly padded texts; what the onboard compresses comes out
on the ground, as text; the decoders agree on compressed lines up to what the ground takes off the payload
and its bound; and other lines pass on the ground only. -/
structure CodecLaw (excess : Bool) (z : Zlib) (dictionary : List UInt8) : Prop where
  undoes : ∀ bytes, base64Decode (base64Encode bytes) = some bytes
  accepts : ∀ text, (base64Decode text).isSome = true ↔ PaddedBase64 text
  line : ∀ line : List UInt8, line.length ≤ maxDecodedBytes → encodeTelemetryLineZ1 z dictionary line ≠ [] →
    decodeLine excess z (some dictionary) (Utf8.decodeReplace (encodeTelemetryLineZ1 z dictionary line)) =
      .ok (Utf8.decodeReplace line)
  text : ∀ text : List Char, (Utf8.encode text).length ≤ maxDecodedBytes →
    encodeTelemetryLineZ1 z dictionary (Utf8.encode text) ≠ [] →
      decodeLine excess z (some dictionary)
        (Utf8.decodeReplace (encodeTelemetryLineZ1 z dictionary (Utf8.encode text))) = .ok text
  agree : ∀ payload : List Char, payload.length < 2 ^ 32 →
    (decodeLine excess z (some dictionary) ("Z1,".toList ++ payload)).toOption =
      (decodeTelemetryLineZ1 z dictionary (Utf8.encode ("Z1,".toList ++ plainPayload excess payload))).bind fun line =>
        if line.length ≤ maxDecodedBytes then some (Utf8.decodeReplace line) else none
  other : ∀ line : List Char, "Z1,".toList.isPrefixOf line = false →
    decodeLine excess z (some dictionary) line = .ok line ∧
      decodeTelemetryLineZ1 z dictionary (Utf8.encode line) = none

/-- A padded text has no padding behind complete groups. -/
theorem dropExcess_padded {text : List UInt8} (h : PaddedBase64 text) : dropExcess pad text = text := by
  obtain ⟨body, padding, htext, hfew, hbody, hfour⟩ := h
  have hletter : ∀ c ∈ body, decide (c ≠ pad) = true := by
    intro c hc
    refine decide_eq_true ?_
    rintro rfl
    have hsome := (mem_kAlphabet_iff pad).mp (hbody pad hc)
    rw [base64Value_pad] at hsome
    exact absurd hsome (by simp)
  have htake : text.takeWhile (fun c => decide (c ≠ pad)) = body := by
    rw [htext, List.takeWhile_append_of_pos hletter, List.takeWhile_replicate]
    simp
  by_cases hcomplete : body.length % 4 = 0
  · rw [htext, List.length_append, List.length_replicate] at hfour
    have hnone : padding = 0 := by omega
    rw [hnone, List.replicate_zero, List.append_nil] at htext
    unfold dropExcess
    rw [htake, htext]
    dsimp only
    split
    · rfl
    · rfl
  · exact dropExcess_partial (by rwa [htake])

/-- Taking padding off leaves the front of a text. -/
theorem dropExcess_prefix {α : Type} [DecidableEq α] (padding : α) (text : List α) : dropExcess padding text <+: text := by
  unfold dropExcess
  dsimp only
  split
  · exact List.takeWhile_prefix _
  · exact List.prefix_rfl

/-- What the onboard encodes is ASCII without blanks, and is left as it is. -/
theorem plainPayload_base64Encode (excess : Bool) (bytes : List UInt8) :
    plainPayload excess (Utf8.decodeReplace (base64Encode bytes)) = Utf8.decodeReplace (base64Encode bytes) ∧
      Utf8.encode (Utf8.decodeReplace (base64Encode bytes)) = base64Encode bytes := by
  have hascii : ∀ b ∈ base64Encode bytes, b.toNat < 0x80 := ascii_of_base64Decode (base64Decode_base64Encode bytes)
  have htext := Utf8.decodeReplace_of_ascii hascii
  have hchar : ∀ value < 0x80, (Char.ofNat value).toNat = value := by decide +kernel
  have hsmall : ∀ c ∈ Utf8.decodeReplace (base64Encode bytes), c.toNat < 0x80 := by
    intro c hc
    rw [htext] at hc
    obtain ⟨b, hb, rfl⟩ := List.mem_map.mp hc
    rw [hchar _ (hascii b hb)]
    exact hascii b hb
  have hback : (Utf8.decodeReplace (base64Encode bytes)).map (fun c => UInt8.ofNat c.toNat) = base64Encode bytes := by
    rw [htext, List.map_map]
    conv_rhs => rw [← List.map_id (base64Encode bytes)]
    refine List.map_congr_left fun b hb => ?_
    rw [Function.comp_apply, hchar _ (hascii b hb), UInt8.ofNat_toNat, id]
  have hblank : ∀ c ∈ Utf8.decodeReplace (base64Encode bytes), PyText.isSpace c = false := by
    intro c hc
    rw [htext] at hc
    obtain ⟨b, hb, rfl⟩ := List.mem_map.mp hc
    have hletters : ∀ b ∈ kAlphabet, PyText.isSpace (Char.ofNat b.toNat) = false := by decide +kernel
    rcases mem_base64Encode hb with hin | rfl
    · exact hletters b hin
    · decide
  have hstrip : PyText.strip (Utf8.decodeReplace (base64Encode bytes)) = Utf8.decodeReplace (base64Encode bytes) :=
    PyText.trim_eq_self_of_ends (fun c hc => hblank c (List.mem_of_mem_head? hc))
      fun c hc => hblank c (List.mem_of_mem_getLast? hc)
  refine ⟨?_, by rw [Utf8.encode_of_ascii hsmall, hback]⟩
  unfold plainPayload
  rw [hstrip]
  split
  · have hpadded : PaddedBase64 (base64Encode bytes) :=
      (base64Decode_isSome_iff _).mp (by rw [base64Decode_base64Encode]; rfl)
    have hmap := dropExcess_map hsmall
    rw [hback, dropExcess_padded hpadded] at hmap
    have hlength := congrArg List.length (hback.trans hmap)
    rw [List.length_map, List.length_map] at hlength
    exact ( dropExcess_prefix _ _).eq_of_length hlength.symm
  · rfl

/-- In every release and with every library that keeps to its manual, the codec keeps its law. -/
theorem codecLaw_of_inverts (excess : Bool) {z : Zlib} {dictionary : List UInt8} (h : Inverts z dictionary) :
    CodecLaw excess z dictionary := by
  have hline : ∀ line : List UInt8, line.length ≤ maxDecodedBytes → encodeTelemetryLineZ1 z dictionary line ≠ [] →
      decodeLine excess z (some dictionary) (Utf8.decodeReplace (encodeTelemetryLineZ1 z dictionary line)) =
        .ok (Utf8.decodeReplace line) := by
    intro line hlength hencoded
    have hshort : line.length < 2 ^ 32 := lt_of_le_of_lt hlength (by decide)
    unfold encodeTelemetryLineZ1 at hencoded ⊢
    rw [counted_eq hshort] at hencoded ⊢
    cases hdeflate : z.deflate dictionary line with
    | none =>
      rw [hdeflate] at hencoded
      exact absurd rfl hencoded
    | some compressed =>
      obtain ⟨hfinished, hholds⟩ := h line compressed hdeflate
      obtain ⟨hplain, hbytes⟩ := plainPayload_base64Encode excess compressed
      have hwire : Utf8.decodeReplace (kZ1Prefix ++ base64Encode compressed) =
          "Z1,".toList ++ Utf8.decodeReplace (base64Encode compressed) := by
        have hascii := ascii_of_base64Decode (base64Decode_base64Encode compressed)
        have hstart : ∀ b ∈ kZ1Prefix, b.toNat < 0x80 := by decide +kernel
        rw [Utf8.decodeReplace_of_ascii fun b hb => (List.mem_append.mp hb).elim (hstart b) (hascii b),
          Utf8.decodeReplace_of_ascii hascii, List.map_append]
        rfl
      have hraw : b64decode excess (PyText.strip (Utf8.decodeReplace (base64Encode compressed))) = some compressed := by
        have hcases := b64decode_plain excess (Utf8.decodeReplace (base64Encode compressed))
        rw [hplain, hbytes, base64Decode_base64Encode] at hcases
        rcases hcases with hsome | ⟨-, hnothing⟩
        · exact hsome
        · obtain rfl : compressed = [] := Option.some.inj hnothing
          rw [(z.holds_noInput dictionary).2] at hfinished
          exact absurd hfinished (by decide)
      have hdecoded := decodeLine_toOption excess z dictionary (Utf8.decodeReplace (base64Encode compressed))
      rw [hraw, Option.bind_some, hholds, if_pos ⟨hfinished, hlength⟩, Option.map_some] at hdecoded
      dsimp only
      rw [hwire]
      cases hresult : decodeLine excess z (some dictionary)
          ("Z1,".toList ++ Utf8.decodeReplace (base64Encode compressed)) with
      | error e =>
        rw [hresult] at hdecoded
        exact absurd hdecoded (by simp [Except.toOption])
      | ok result =>
        rw [hresult] at hdecoded
        exact congrArg Except.ok (Option.some.inj hdecoded)
  refine ⟨base64Decode_base64Encode, base64Decode_isSome_iff, hline, ?_, fun payload => decodeLine_eq excess z dictionary,
    ?_⟩
  · intro text hlength hencoded
    have htext := hline (Utf8.encode text) hlength hencoded
    rwa [Utf8.decodeReplace_encode] at htext
  · intro line hother
    have hstarts : kZ1Prefix.isPrefixOf (Utf8.encode line) = false := by
      by_contra hprefix
      obtain ⟨rest, hrest⟩ := List.isPrefixOf_iff_prefix.mp (Bool.eq_true_of_not_eq_false hprefix)
      have hletters : kZ1Prefix = [90, 49, 44] := rfl
      have hline := Utf8.decodeReplace_encode line
      rw [← hrest, hletters, List.cons_append, List.cons_append, List.singleton_append,
        Utf8.decodeReplace_ascii (by decide), Utf8.decodeReplace_ascii (by decide),
        Utf8.decodeReplace_ascii (by decide)] at hline
      rw [← hline] at hother
      exact absurd hother (by simp)
    constructor
    · rw [decodeLine, hother]
      rfl
    · rw [decodeTelemetryLineZ1, hstarts]
      rfl

/-- A call on what a stream holds, the way it ends and the input it has left. -/
def inflateTable (s : List UInt8 × Ending × ℕ) (room : ℕ) : Inflated (List UInt8 × Ending × ℕ) :=
  if room = 0 then ⟨.bufError, [], s⟩
  else if room < s.1.length then ⟨.ok, s.1.take room, (s.1.drop room, s.2)⟩
  else
    match s.2.1 with
    | .finished => ⟨.streamEnd, s.1, ([], .finished, 0)⟩
    | .corrupt => ⟨.dataError, s.1, ([], .corrupt, 0)⟩
    | .starved => ⟨.bufError, s.1, ([], .starved, 0)⟩

/-- The library on the line of the single letter `a`, which deflates to a fixed block of three bytes;
any other input is no stream of that line. -/
def letterA : Zlib where
  deflate _ line := if line = [97] then some [0x4B, 0x04, 0x00] else none
  Stream := List UInt8 × Ending × ℕ
  inflateInit _ input :=
    if input = [0x4B, 0x04, 0x00] then ([97], .finished, 3)
    else if input = [] then ([], .starved, 0)
    else ([], .corrupt, input.length)
  inflate := inflateTable
  availIn s := s.2.2
  holds s := s.1
  ending s := s.2.1
  holds_noInput _ := ⟨rfl, rfl⟩
  bytes_eq s room := by
    unfold inflateTable
    split
    case isTrue hzero => rw [hzero, List.take_zero]
    case isFalse =>
      split
      · rfl
      case isFalse hall => rw [List.take_of_length_le (not_lt.mp hall)]; split <;> rfl
  availIn_le s room := by
    unfold inflateTable
    grind
  progress s room hok := by
    unfold inflateTable at hok ⊢
    by_cases hzero : room = 0
    · rw [if_pos hzero] at hok
      exact absurd hok (by simp)
    · by_cases hmore : room < s.1.length
      · left
        rw [if_neg hzero, if_pos hmore]
        dsimp only
        rw [← List.length_pos_iff, List.length_take]
        omega
      · rw [if_neg hzero, if_neg hmore] at hok
        split at hok
        all_goals exact absurd hok (by simp)
  filled s room hroom hmore := by
    unfold inflateTable
    rw [if_neg (by omega), if_pos hmore]
    exact ⟨rfl, rfl, rfl⟩
  finished s room hroom hall hfinished := by
    unfold inflateTable
    rw [if_neg (by omega), if_neg (by omega), hfinished]
  unfinished s room hroom hall hunfinished := by
    unfold inflateTable
    rw [if_neg (by omega), if_neg (by omega)]
    grind

/-- The law on the line of the single letter. -/
theorem codecLaw_of_inverts_letterA : CodecLaw false letterA [] :=
  @codecLaw_of_inverts false letterA [] fun line compressed hdeflate => by
    change (if line = [97] then _ else _) = some compressed at hdeflate
    split at hdeflate
    case isTrue hline =>
      obtain rfl := Option.some.inj hdeflate
      rw [hline]
      exact ⟨rfl, rfl⟩
    case isFalse => exact absurd hdeflate (by simp)

/-- A blank in front of the payload passes on the ground and not onboard. -/
theorem leadingBlank_disagrees :
    decodeLine false letterA (some []) "Z1, SwQA".toList = .ok ['a'] ∧
      decodeTelemetryLineZ1 letterA [] (Utf8.encode "Z1, SwQA".toList) = none := by
  constructor
  · rfl
  · rfl

end Coatheal.Ground
