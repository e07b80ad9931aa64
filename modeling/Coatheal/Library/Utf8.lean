import Mathlib.Data.List.Chain
import Mathlib.Tactic.IntervalCases

/-!
# UTF-8 with replacement

The encoding of a text and the decoding that never fails: what is not well
formed is read as the replacement character, one for every longest part that
begins a character. A byte that ends before it is complete is never joined with
an ASCII byte behind it, so a text may be cut at its ASCII characters.
-/

namespace Coatheal.Library.Utf8

/-- The bytes of a text. -/
def encode (text : List Char) : List UInt8 := text.flatMap String.utf8EncodeChar

/-- The replacement character. -/
def replacement : Char := '\uFFFD'

/-- A byte within bounds. -/
def within (low high : ℕ) (b : UInt8) : Bool := decide (low ≤ b.toNat ∧ b.toNat ≤ high)

/-- Whether a byte continues a character. -/
def isTail (b : UInt8) : Bool := within 0x80 0xBF b

/-- Whether a byte starts a character of several bytes with that second byte. -/
def follows (lead second : UInt8) : Bool :=
  if lead = 0xE0 then within 0xA0 0xBF second
  else if lead = 0xED then within 0x80 0x9F second
  else if lead = 0xF0 then within 0x90 0xBF second
  else if lead = 0xF4 then within 0x80 0x8F second
  else within 0xC2 0xF3 lead && isTail second

/-- The character of a first byte and those behind it. -/
def assemble (lead : ℕ) (tails : List UInt8) : Char :=
  Char.ofNat (tails.foldl (fun value tail => value * 64 + tail.toNat % 64) lead)

/-- The text of some bytes, malformed parts replaced. -/
def decodeReplace : List UInt8 → List Char
  | [] => []
  | a :: rest =>
    if a.toNat < 0x80 then assemble a.toNat [] :: decodeReplace rest
    else
      match rest with
      | [] => [replacement]
      | b :: rest₁ =>
        if follows a b then
          if a.toNat < 0xE0 then assemble (a.toNat % 32) [b] :: decodeReplace rest₁
          else
            match rest₁ with
            | [] => [replacement]
            | c :: rest₂ =>
              if isTail c then
                if a.toNat < 0xF0 then assemble (a.toNat % 16) [b, c] :: decodeReplace rest₂
                else
                  match rest₂ with
                  | [] => [replacement]
                  | d :: rest₃ =>
                    if isTail d then assemble (a.toNat % 8) [b, c, d] :: decodeReplace rest₃
                    else replacement :: decodeReplace (d :: rest₃)
              else replacement :: decodeReplace (c :: rest₂)
        else replacement :: decodeReplace (b :: rest₁)

/-- An ASCII byte is a character by itself. -/
theorem decodeReplace_ascii {a : UInt8} (h : a.toNat < 0x80) (rest : List UInt8) :
    decodeReplace (a :: rest) = Char.ofNat a.toNat :: decodeReplace rest := by
  rw [decodeReplace.eq_def]
  simp [h, assemble]

/-- The bytes of an ASCII text are its characters. -/
theorem decodeReplace_of_ascii {bytes : List UInt8} (h : ∀ b ∈ bytes, b.toNat < 0x80) :
    decodeReplace bytes = bytes.map fun b => Char.ofNat b.toNat := by
  induction bytes with
  | nil => rfl
  | cons b rest ih =>
    rw [decodeReplace_ascii (h b List.mem_cons_self), ih fun c hc => h c (List.mem_cons_of_mem _ hc), List.map_cons]

/-- A lead byte of two with its tail is a character. -/
theorem decodeReplace_two {a b : UInt8} (hlead : 0xC2 ≤ a.toNat ∧ a.toNat < 0xE0) (hb : isTail b = true)
    (rest : List UInt8) :
    decodeReplace (a :: b :: rest) = assemble (a.toNat % 32) [b] :: decodeReplace rest := by
  have hascii : ¬ a.toNat < 0x80 := by omega
  have hfollows : follows a b = true := by
    have hne : ∀ c : UInt8, 0xE0 ≤ c.toNat → a ≠ c := by
      rintro c hc rfl
      omega
    rw [follows, if_neg (hne _ (by decide)), if_neg (hne _ (by decide)), if_neg (hne _ (by decide)),
      if_neg (hne _ (by decide)), hb, within, decide_eq_true (by omega), Bool.true_and]
  rw [decodeReplace.eq_def]
  simp only [hascii, if_false, hfollows, if_true, hlead.2]

/-- A lead byte of three with its tails is a character. -/
theorem decodeReplace_three {a b c : UInt8} (hlead : 0xE0 ≤ a.toNat ∧ a.toNat < 0xF0)
    (hb : follows a b = true) (hc : isTail c = true) (rest : List UInt8) :
    decodeReplace (a :: b :: c :: rest) = assemble (a.toNat % 16) [b, c] :: decodeReplace rest := by
  have hascii : ¬ a.toNat < 0x80 := by omega
  have htwo : ¬ a.toNat < 0xE0 := by omega
  rw [decodeReplace.eq_def]
  simp only [hascii, htwo, if_false, hb, hc, if_true, hlead.2]

/-- A lead byte of four with its tails is a character. -/
theorem decodeReplace_four {a b c d : UInt8} (hlead : 0xF0 ≤ a.toNat)
    (hb : follows a b = true) (hc : isTail c = true) (hd : isTail d = true) (rest : List UInt8) :
    decodeReplace (a :: b :: c :: d :: rest) = assemble (a.toNat % 8) [b, c, d] :: decodeReplace rest := by
  have hascii : ¬ a.toNat < 0x80 := by omega
  have htwo : ¬ a.toNat < 0xE0 := by omega
  have hthree : ¬ a.toNat < 0xF0 := by omega
  rw [decodeReplace.eq_def]
  simp only [hascii, htwo, hthree, if_false, hb, hc, hd, if_true]

/-- The byte of a tail. -/
theorem isTail_ofNat (value : ℕ) : isTail (UInt8.ofNat (value % 64 + 0x80)) = true := by
  have hbyte : (UInt8.ofNat (value % 64 + 0x80)).toNat = value % 64 + 0x80 :=
    UInt8.toNat_ofNat_of_lt' (by change _ < 256; omega)
  rw [isTail, within, hbyte]
  exact decide_eq_true (by omega)

/-- The bytes of a character are read as that character. -/
theorem decodeReplace_encodeChar (c : Char) (rest : List UInt8) :
    decodeReplace (String.utf8EncodeChar c ++ rest) = c :: decodeReplace rest := by
  have hvalid : c.val.toNat < 0xD800 ∨ 0xDFFF < c.val.toNat ∧ c.val.toNat < 0x110000 := c.valid
  have hbyte : ∀ {byte : ℕ}, byte < 256 → (UInt8.ofNat byte).toNat = byte := UInt8.toNat_ofNat_of_lt'
  have hsame : ∀ value, value = c.val.toNat → Char.ofNat value = c := by
    rintro _ rfl
    exact Char.ofNat_toNat c
  unfold String.utf8EncodeChar
  extract_lets value
  have hvalue : value = c.val.toNat := rfl
  rw [← hvalue] at hvalid hsame
  clear_value value
  split
  · rw [List.singleton_append, decodeReplace_ascii (by rw [hbyte (by omega)]; omega),
      hbyte (by omega), hsame value rfl]
  split
  · have hlead : (UInt8.ofNat (value / 64 % 0x20 + 0xc0)).toNat = value / 64 % 0x20 + 0xc0 :=
      hbyte (by omega)
    rw [List.cons_append, List.singleton_append, decodeReplace_two (by rw [hlead]; omega) (isTail_ofNat _), hlead]
    congr 1
    refine hsame _ ?_
    rw [List.foldl_cons, List.foldl_nil, hbyte (by omega)]
    omega
  split
  · have hlead : (UInt8.ofNat (value / 4096 % 0x10 + 0xe0)).toNat = value / 4096 % 0x10 + 0xe0 :=
      hbyte (by omega)
    have hsecond : (UInt8.ofNat (value / 64 % 0x40 + 0x80)).toNat = value / 64 % 0x40 + 0x80 :=
      hbyte (by omega)
    rw [List.cons_append, List.cons_append, List.singleton_append,
      decodeReplace_three (by rw [hlead]; omega) ?_ (isTail_ofNat _), hlead]
    · congr 1
      refine hsame _ ?_
      rw [List.foldl_cons, List.foldl_cons, List.foldl_nil, hbyte (by omega), hbyte (by omega)]
      omega
    · unfold follows isTail within
      simp only [← UInt8.toNat_inj, hlead, hsecond]
      grind
  · have hlead : (UInt8.ofNat (value / 262144 % 0x08 + 0xf0)).toNat = value / 262144 % 0x08 + 0xf0 :=
      hbyte (by omega)
    have hsecond : (UInt8.ofNat (value / 4096 % 0x40 + 0x80)).toNat = value / 4096 % 0x40 + 0x80 :=
      hbyte (by omega)
    rw [List.cons_append, List.cons_append, List.cons_append, List.singleton_append,
      decodeReplace_four (by rw [hlead]; omega) ?_ (isTail_ofNat _) (isTail_ofNat _), hlead]
    · congr 1
      refine hsame _ ?_
      rw [List.foldl_cons, List.foldl_cons, List.foldl_cons, List.foldl_nil, hbyte (by omega),
        hbyte (by omega), hbyte (by omega)]
      omega
    · unfold follows isTail within
      simp only [← UInt8.toNat_inj, hlead, hsecond]
      grind

/-- The bytes of a text are read as that text. -/
theorem decodeReplace_encode (text : List Char) : decodeReplace (encode text) = text := by
  induction text with
  | nil => rfl
  | cons c rest ih => rw [encode, List.flatMap_cons, decodeReplace_encodeChar, ← encode, ih]

/-- An ASCII text has a byte for each character. -/
theorem encode_of_ascii {text : List Char} (h : ∀ c ∈ text, c.toNat < 0x80) :
    encode text = text.map fun c => UInt8.ofNat c.toNat := by
  induction text with
  | nil => rfl
  | cons c rest ih =>
    have hc : c.val.toNat ≤ 0x7f := Nat.lt_succ_iff.mp (h c List.mem_cons_self)
    have hsingle : String.utf8EncodeChar c = [UInt8.ofNat c.toNat] := by
      rw [String.utf8EncodeChar.eq_def]
      dsimp only
      rw [if_pos hc]
      rfl
    rw [encode, List.flatMap_cons, ← encode, ih fun d hd => h d (List.mem_cons_of_mem _ hd), hsingle, List.map_cons,
      List.singleton_append]

/-- A character beyond ASCII shows in the bytes. -/
theorem exists_byte_of_not_ascii {text : List Char} {c : Char} (hc : c ∈ text) (h : 0x80 ≤ c.toNat) :
    ∃ b ∈ encode text, 0x80 ≤ b.toNat := by
  by_contra hnone
  have hascii : ∀ b ∈ encode text, b.toNat < 0x80 := fun b hb => by
    by_contra hbeyond
    exact hnone ⟨b, hb, not_lt.mp hbeyond⟩
  have htext := decodeReplace_of_ascii hascii
  rw [decodeReplace_encode] at htext
  rw [htext] at hc
  obtain ⟨b, hb, rfl⟩ := List.mem_map.mp hc
  have hbyte := hascii b hb
  have hsame : ∀ value < 0x80, (Char.ofNat value).toNat = value := by decide +kernel
  rw [hsame _ hbyte] at h
  omega

/-- Only a tail can follow a lead byte. -/
theorem isTail_of_follows {a b : UInt8} (h : follows a b = true) : isTail b = true := by
  unfold follows isTail within at *
  grind

/-- Where no tail comes next, a text can be cut. -/
theorem decodeReplace_append (front : List UInt8) {back : List UInt8}
    (h : ∀ b ∈ back.head?, isTail b = false) :
    decodeReplace (front ++ back) = decodeReplace front ++ decodeReplace back := by
  fun_induction decodeReplace front with
  | case1 => rfl
  | case3 a hascii =>
    cases back with
    | nil => simp [decodeReplace, hascii]
    | cons x xs =>
      have hx : follows a x = false := by
        by_contra hfollows
        exact absurd (isTail_of_follows (by simpa using hfollows)) (by rw [h x rfl]; simp)
      rw [List.singleton_append, decodeReplace.eq_def]
      simp [hascii, hx]
  | case5 a hascii b hfollows hlong =>
    cases back with
    | nil => simp [decodeReplace, hascii, hfollows, hlong]
    | cons x xs =>
      rw [List.cons_append, List.singleton_append, decodeReplace.eq_def]
      simp [hascii, hfollows, hlong, h x rfl]
  | case7 a hascii b hfollows hlong c htail hfour =>
    cases back with
    | nil => simp [decodeReplace, hascii, hfollows, hlong, htail, hfour]
    | cons x xs =>
      rw [List.cons_append, List.cons_append, List.singleton_append, decodeReplace.eq_def]
      simp [hascii, hfollows, hlong, htail, hfour, h x rfl]
  | case2 | case4 | case6 | case8 | case9 | case10 | case11 =>
    simp only [List.cons_append] at *
    rw [decodeReplace.eq_def]
    simp [*]

/-- What a single byte is read as. -/
def single (b : UInt8) : Char := if b.toNat < 0x80 then Char.ofNat b.toNat else replacement

/-- No byte is followed by one that it can begin a character with. -/
def Separate (bytes : List UInt8) : Prop := bytes.IsChain fun a b => follows a b = false

/-- Bytes that begin no character of several bytes are read one by one. -/
theorem decodeReplace_of_separate {bytes : List UInt8} (h : Separate bytes) :
    decodeReplace bytes = bytes.map single := by
  induction bytes with
  | nil => rfl
  | cons a rest ih =>
    have hrest := ih h.tail
    rw [decodeReplace.eq_def, List.map_cons, ← hrest]
    by_cases hascii : a.toNat < 0x80
    · simp [hascii, single, assemble]
    · cases rest with
      | nil => simp [hascii, single, decodeReplace]
      | cons b more =>
        have hpair : follows a b = false := h.rel
        simp [hascii, hpair, single]

/-- What follows says of the two bytes. -/
theorem bounds_of_follows {a b : UInt8} (h : follows a b = true) :
    0xC2 ≤ a.toNat ∧ a.toNat ≤ 0xF4 ∧ 0x80 ≤ b.toNat ∧ b.toNat ≤ 0xBF ∧ (a.toNat = 0xE0 → 0xA0 ≤ b.toNat) ∧
      (a.toNat = 0xF0 → 0x90 ≤ b.toNat) := by
  unfold follows isTail within at h
  simp only [← UInt8.toNat_inj] at h
  grind

/-- A character of several bytes is no newline. -/
theorem assemble_ne_newline {lead : ℕ} {tails : List UInt8}
    (h : 0x80 ≤ tails.foldl (fun value tail => value * 64 + tail.toNat % 64) lead) : assemble lead tails ≠ '\n' := by
  intro heq
  unfold assemble at heq
  generalize tails.foldl (fun value tail => value * 64 + tail.toNat % 64) lead = value at h heq
  by_cases hvalid : value.isValidChar
  · have hchar : Char.ofNat value = Char.ofNatAux value hvalid := dif_pos hvalid
    have hvalue : value = '\n'.toNat := congrArg Char.toNat (hchar.symm.trans heq)
    exact absurd (hvalue ▸ h) (by decide)
  · have hchar : Char.ofNat value = Char.ofNat 0xD800 := (dif_neg hvalid).trans (by decide)
    exact absurd (hchar.symm.trans heq) (by decide)

/-- Only its byte is read as a newline. -/
theorem newline_notMem_decodeReplace {bytes : List UInt8} (h : 10 ∉ bytes) : '\n' ∉ decodeReplace bytes := by
  have hreplacement : '\n' ≠ replacement := by decide
  fun_induction decodeReplace bytes with
  | case1 => simp
  | case2 a rest hascii ih =>
    obtain ⟨hfirst, hrest⟩ := not_or.mp (List.mem_cons.not.mp h)
    have hvalue : ∀ value < 0x80, Char.ofNat value = '\n' → value = 10 := by decide +kernel
    have hne : assemble a.toNat [] ≠ '\n' := fun heq =>
      hfirst (UInt8.toNat_inj.mp (hvalue _ hascii heq).symm)
    exact List.mem_cons.not.mpr (not_or.mpr ⟨hne.symm, ih hrest⟩)
  | case4 a hascii b rest hfollows htwo ih =>
    have hbounds := bounds_of_follows hfollows
    have hne : assemble (a.toNat % 32) [b] ≠ '\n' := assemble_ne_newline (by
      simp only [List.foldl_cons, List.foldl_nil]
      omega)
    simp_all [hne.symm]
  | case6 a hascii b hfollows hlong c rest htail hfour ih =>
    have hbounds := bounds_of_follows hfollows
    have hne : assemble (a.toNat % 16) [b, c] ≠ '\n' := assemble_ne_newline (by
      simp only [List.foldl_cons, List.foldl_nil]
      omega)
    simp_all [hne.symm]
  | case8 a hascii b hfollows hlong c htail hfour d rest hlast ih =>
    have hbounds := bounds_of_follows hfollows
    have hne : assemble (a.toNat % 8) [b, c, d] ≠ '\n' := assemble_ne_newline (by
      simp only [List.foldl_cons, List.foldl_nil]
      omega)
    simp_all [hne.symm]
  | case3 | case5 | case7 | case9 | case10 | case11 => simp_all

/-- What was read grows by what the byte is by itself, or the byte goes with an unfinished character at the end. -/
def Grows (before after : List Char) (b : UInt8) : Prop :=
  after = before ++ [single b] ∨ ∃ front c, before = front ++ [replacement] ∧ after = front ++ [c]

/-- What stands in front does not matter. -/
theorem Grows.cons {before after : List Char} {b : UInt8} (h : Grows before after b) (c : Char) :
    Grows (c :: before) (c :: after) b := by
  rcases h with rfl | ⟨front, last, rfl, rfl⟩
  · exact Or.inl rfl
  · exact Or.inr ⟨c :: front, last, rfl, rfl⟩

/-- A byte by itself. -/
theorem decodeReplace_one (b : UInt8) : decodeReplace [b] = [single b] := by
  rw [decodeReplace_of_separate (List.isChain_singleton b)]
  rfl

/-- One more byte is read by itself, or it goes with an unfinished character at the end. -/
theorem grows_snoc (bytes : List UInt8) (b : UInt8) : Grows (decodeReplace bytes) (decodeReplace (bytes ++ [b])) b := by
  fun_induction decodeReplace bytes with
  | case1 => exact Or.inl (decodeReplace_one b)
  | case3 a hascii =>
    by_cases hfollows : follows a b = true
    · refine Or.inr ⟨[], ?_⟩
      rw [List.singleton_append, decodeReplace.eq_def]
      simp only [hascii, if_false, hfollows, if_true]
      split <;> exact ⟨_, rfl, rfl⟩
    · refine Or.inl ?_
      rw [List.singleton_append, decodeReplace.eq_def]
      simp [hascii, hfollows, decodeReplace_one]
  | case5 a hascii c hfollows hlong =>
    by_cases htail : isTail b = true
    · refine Or.inr ⟨[], ?_⟩
      rw [List.cons_append, List.singleton_append, decodeReplace.eq_def]
      simp only [hascii, hlong, if_false, hfollows, htail, if_true]
      split <;> exact ⟨_, rfl, rfl⟩
    · refine Or.inl ?_
      rw [List.cons_append, List.singleton_append, decodeReplace.eq_def]
      simp [hascii, hfollows, hlong, htail, decodeReplace_one]
  | case7 a hascii c hfollows hlong d htail hfour =>
    by_cases hlast : isTail b = true
    · refine Or.inr ⟨[], ?_⟩
      rw [List.cons_append, List.cons_append, List.singleton_append, decodeReplace.eq_def]
      simp only [hascii, hlong, hfour, if_false, hfollows, htail, hlast, if_true]
      exact ⟨_, rfl, rfl⟩
    · refine Or.inl ?_
      rw [List.cons_append, List.cons_append, List.singleton_append, decodeReplace.eq_def]
      simp [hascii, hfollows, hlong, htail, hfour, hlast, decodeReplace_one]
  | case2 | case4 | case6 | case8 | case9 | case10 | case11 =>
    rename_i ih
    refine (congrArg (Grows _ · b) ?_).mpr (ih.cons _)
    simp only [List.cons_append]
    rw [decodeReplace.eq_def]
    simp [*]

/-- Bytes that are not separate hold two of which the first can begin a character with the second. -/
theorem exists_follows_of_not_separate {bytes : List UInt8} (h : ¬ Separate bytes) :
    ∃ front a b back, bytes = front ++ a :: b :: back ∧ follows a b = true := by
  induction bytes with
  | nil => exact absurd List.isChain_nil h
  | cons a rest ih =>
    by_cases hrest : Separate rest
    · cases rest with
      | nil => exact absurd (List.isChain_singleton a) h
      | cons b back =>
        have hpair : ¬ follows a b = false := fun hpair => h (List.isChain_cons_cons.mpr ⟨hpair, hrest⟩)
        exact ⟨[], a, b, back, rfl, by simpa using hpair⟩
    · obtain ⟨front, c, d, back, rfl, hfollows⟩ := ih hrest
      exact ⟨a :: front, c, d, back, rfl, hfollows⟩

/-- Two bytes that belong together are two replacements when they are read apart, and at most one when they are
read together. -/
theorem count_replacement_of_follows {a b : UInt8} (h : follows a b = true) :
    [single a, single b] = [replacement, replacement] ∧ (decodeReplace [a, b]).count replacement ≤ 1 := by
  have hbounds := bounds_of_follows h
  have ha : ¬ a.toNat < 0x80 := by omega
  have hb : ¬ b.toNat < 0x80 := by omega
  refine ⟨by rw [single, single, if_neg ha, if_neg hb], ?_⟩
  have hone : ∃ c, decodeReplace [a, b] = [c] := by
    rw [decodeReplace.eq_def]
    simp only [ha, if_false, h, if_true]
    split
    · exact ⟨_, rfl⟩
    · exact ⟨_, rfl⟩
  obtain ⟨c, hc⟩ := hone
  rw [hc]
  exact List.count_le_length

end Coatheal.Library.Utf8
