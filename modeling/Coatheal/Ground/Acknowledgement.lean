import Coatheal.Delivery.System
import Coatheal.Ground.Receiver

/-!
# The ACK that is expected and the ACK that is built

The onboard reads an ACK, writes it down again, and compares that with the text
that it cuts out of the frame as it stands. The ground station strips the fields
and reads the number before it writes both down. The texts agree for a header
that stripping and reading leave as it is, on the parsed path and on the raw one.
-/

namespace Coatheal.Ground

open Library Library.Text Library.PyText Delivery

/-- `ExpectedAckLine`, as the text that is compared; empty for a line of unknown shape. -/
def expectedAckText (line : List Char) : List Char :=
  match expectedAckLine line with
  | some (session, number) => "ACK,".toList ++ session ++ ',' :: number
  | none => []

/-- `ParseAckLine`: the session and the number of an ACK. -/
def parseAckLine (line : List Char) : Option (List Char × UInt64) :=
  match getlines ',' line with
  | [kind, session, number] =>
    if kind = "ACK".toList ∧ session ≠ [] then (stoull number).map fun seq => (session, seq) else none
  | _ => none

/-- The test of `SendFrame`: the ACK can be read, and written down again it is the one that is expected. -/
def accepts (line ack : List Char) : Bool :=
  match parseAckLine ack with
  | some (session, seq) =>
    decide (expectedAckText line = []) ||
      decide ("ACK,".toList ++ session ++ ',' :: showNat seq.toNat = expectedAckText line)
  | none => false

/-- What comes in on the wire is the line itself or its compressed form. -/
def Carries (inflate : List Char → Option (List Char)) (wire line : List Char) : Prop :=
  wire = line ∨ startsWith "Z1," (strip wire) = true ∧ inflate (strip wire) = some line

/-- The raw header tells whose frame it is: the test that `ack_for_raw_line` makes. -/
def rawHeader (text : List Char) : Bool :=
  let fields := parts text
  decide (3 ≤ fields.length) &&
    ((decide (part fields 0 = "DATA".toList) && decide (part fields 1 ≠ []) && isDigits (part fields 2)) ||
      (decide (part fields 0 = "EVT".toList) && decide (part fields 2 ≠ [])))

/-- The receiver can parse a frame, or at least read its header. -/
def Receiver.Identifies (receiver : Receiver) (text : List Char) : Prop :=
  receiver.read text ≠ .unparseable ∨ rawHeader text = true

/-- The ground station builds the ACK that the onboard expects, and the onboard takes it. -/
def Receiver.Agrees (receiver : Receiver) (inflate : List Char → Option (List Char)) (wire line : List Char) : Prop :=
  receiver.ackFor inflate wire = some (expectedAckText line ++ ['\n']) ∧ accepts line (expectedAckText line) = true

/-- The text is the plain decimal form of a number of 64 bits. -/
def isPlainNumber (text : List Char) : Bool := decide ((stoull text).map (fun seq => showNat seq.toNat) = some text)

/-- The header is written the way both sides write it back: a session, with no white space around it, and the
number of a telemetry frame in its plain decimal form. -/
def canonicalHeader (line : List Char) : Bool :=
  match getlines ',' line with
  | kind :: first :: second :: _ =>
    (decide (kind = "DATA".toList) && decide (first ≠ []) && decide (strip first = first) && isPlainNumber second) ||
      (decide (kind = "EVT".toList) && decide (second ≠ []) && decide (strip second = second))
  | _ => false

/-- Stripping a line does not change its fields. -/
theorem parts_strip (line : List Char) : parts (strip line) = parts line := by
  unfold parts
  rw [strip_strip]

/-- The fields of a line are its stripped pieces. -/
theorem parts_eq (line : List Char) : parts line = (line.splitOn ',').map strip :=
  map_strip_splitOn (by decide) line

/-- A line that begins with a word and a comma has the word as its first field. -/
theorem part_zero_of_startsWith {word text : List Char} (hcomma : ',' ∉ word) (hstrip : strip word = word)
    (h : (word ++ [',']).isPrefixOf text = true) : part (parts text) 0 = word := by
  obtain ⟨rest, rfl⟩ := List.isPrefixOf_iff_prefix.mp h
  rw [parts_eq, List.append_assoc, splitOn_append_left hcomma]
  simp [part, List.splitOn_cons_eq_if_modifyHead, hstrip]

/-- Without an answer a frame was not parsed, and the raw line gave none either. -/
theorem Receiver.answer_none {receiver : Receiver} {text : List Char} (h : receiver.answer text = none) :
    receiver.read text = .unparseable ∧ ackForRawLine text = none := by
  unfold answer at h
  split at h
  case h_4 hread => exact ⟨hread, h⟩
  all_goals cases h

/-- What a receiver identifies is answered by what its first fields tell, or has a digit in its number that is
no decimal digit. -/
theorem Receiver.Identifies.cases {receiver : Receiver} {text : List Char} (h : receiver.Identifies text) :
    (∃ ack, receiver.answer text = some ack ∧ AckOf text ack) ∨
      receiver.answer text = none ∧ rawHeader text = true ∧ ackForRawLine text = none := by
  cases hanswer : receiver.answer text with
  | some ack => exact Or.inl ⟨ack, rfl, answer_some hanswer⟩
  | none =>
    obtain ⟨hread, hnone⟩ := answer_none hanswer
    exact Or.inr ⟨rfl, h.resolve_left (not_not_intro hread), hnone⟩

/-- What a receiver identifies is a telemetry frame or an event. -/
theorem Receiver.Identifies.kind {receiver : Receiver} {text : List Char} (h : receiver.Identifies text) :
    part (parts text) 0 = "DATA".toList ∨ part (parts text) 0 = "EVT".toList := by
  rcases h.cases with ⟨ack, _, hack⟩ | ⟨_, hraw, _⟩
  · cases hack with
    | telemetry _ hkind _ _ => exact Or.inl hkind
    | event hkind _ _ => exact Or.inr hkind
  · simp only [rawHeader, Bool.and_eq_true, Bool.or_eq_true, decide_eq_true_eq] at hraw
    exact hraw.2.imp (·.1.1) (·.1)

/-- The header of what a receiver identifies has its three fields. -/
theorem Receiver.Identifies.third {receiver : Receiver} {text : List Char} (h : receiver.Identifies text) :
    4 ≤ (parts text).length ∨ part (parts text) 2 ≠ [] := by
  rcases h.cases with ⟨ack, _, hack⟩ | ⟨_, hraw, _⟩
  · cases hack with
    | telemetry seq _ hseq _ =>
      refine Or.inr fun hempty => ?_
      rw [hempty] at hseq
      cases hseq
    | event _ hlength _ => exact hlength
  · simp only [rawHeader, isDigits, Bool.and_eq_true, Bool.or_eq_true, decide_eq_true_eq] at hraw
    exact Or.inr (hraw.2.elim (·.2.1) (·.2))

/-- The answer to a telemetry frame names its session and its number. -/
theorem Receiver.Identifies.answer_data {receiver : Receiver} {text : List Char} (h : receiver.Identifies text)
    (hkind : part (parts text) 0 = "DATA".toList) :
    receiver.answer text = (int (part (parts text) 2)).map (buildAck (part (parts text) 1)) := by
  rcases h.cases with ⟨ack, hanswer, hack⟩ | ⟨hanswer, hraw, hnone⟩
  · cases hack with
    | telemetry seq _ hseq hack => rw [hanswer, hack, hseq, Option.map_some]
    | event hevent _ _ => exact absurd (hkind.symm.trans hevent) (by decide)
  · have hother : part (parts text) 0 ≠ "EVT".toList := by rw [hkind]; decide
    simp only [rawHeader, Bool.and_eq_true, Bool.or_eq_true, decide_eq_true_eq, hother, false_and, or_false] at hraw
    rw [hanswer, ← hnone, ackForRawLine, if_pos ⟨hraw.1, hkind, hraw.2.1.2, hraw.2.2⟩]

/-- The answer to an event names its session and the number zero. -/
theorem Receiver.Identifies.answer_event {receiver : Receiver} {text : List Char} (h : receiver.Identifies text)
    (hkind : part (parts text) 0 = "EVT".toList) :
    receiver.answer text = some (buildAck (part (parts text) 2) 0) := by
  rcases h.cases with ⟨ack, hanswer, hack⟩ | ⟨hanswer, hraw, hnone⟩
  · cases hack with
    | telemetry _ hdata _ _ => exact absurd (hkind.symm.trans hdata) (by decide)
    | event _ _ hack => rw [hanswer, hack]
  · have hother : part (parts text) 0 ≠ "DATA".toList := by rw [hkind]; decide
    simp only [rawHeader, Bool.and_eq_true, Bool.or_eq_true, decide_eq_true_eq, hother, false_and, false_or] at hraw
    rw [ackForRawLine, if_neg fun hdata => hother hdata.2.1, if_pos ⟨hraw.1, hraw.2.1, hraw.2.2⟩] at hnone
    cases hnone

/-- The onboard and the ground station cut the same three fields out of a line that is identified; the ground
station strips them. -/
theorem Receiver.Identifies.fields {receiver : Receiver} {line : List Char} (h : receiver.Identifies (strip line)) :
    ∃ kind first second rest, getlines ',' line = kind :: first :: second :: rest ∧
      part (parts line) 0 = strip kind ∧ part (parts line) 1 = strip first ∧ part (parts line) 2 = strip second := by
  have hthird := h.third
  rw [parts_strip, parts_eq] at hthird
  rw [parts_eq]
  rcases splitOn_eq_getlines ',' line with hsplit | hsplit <;>
    rw [hsplit] at hthird ⊢ <;>
    generalize getlines ',' line = pieces at hthird ⊢ <;>
    rcases pieces with _ | ⟨kind, _ | ⟨first, _ | ⟨second, rest⟩⟩⟩
  case inl.nil => simp [part] at hthird
  case inl.cons.nil => simp [part] at hthird
  case inl.cons.cons.nil => simp [part] at hthird
  case inl.cons.cons.cons => exact ⟨kind, first, second, rest, rfl, rfl, rfl, rfl⟩
  case inr.nil => simp [part] at hthird
  case inr.cons.nil => simp [part] at hthird
  case inr.cons.cons.nil => simp [part, strip, trim] at hthird
  case inr.cons.cons.cons => exact ⟨kind, first, second, rest, rfl, rfl, rfl, rfl⟩

/-- The line and its compressed form carry the text that the parsers get. -/
theorem frameText_of_carries {receiver : Receiver} {inflate : List Char → Option (List Char)} {wire line : List Char}
    (h : Carries inflate wire line) (hknown : receiver.Identifies (strip line)) :
    frameText inflate wire = some (strip line) := by
  have hkind := hknown.kind
  have hne : strip line ≠ [] := by
    intro hempty
    rw [hempty] at hkind
    exact absurd hkind (by decide)
  have hnot (word : String) (hcomma : ',' ∉ word.toList) (hstrip : strip word.toList = word.toList)
      (hdata : word.toList ≠ "DATA".toList) (hevent : word.toList ≠ "EVT".toList) :
      (word.toList ++ [',']).isPrefixOf (strip line) = false := by
    refine Bool.eq_false_iff.mpr fun hstarts => ?_
    rw [part_zero_of_startsWith hcomma hstrip hstarts] at hkind
    exact hkind.elim hdata hevent
  have hhello : startsWith "HELLO," (strip line) = false :=
    hnot "HELLO" (by decide) (by decide) (by decide) (by decide)
  have hz1 : startsWith "Z1," (strip line) = false := hnot "Z1" (by decide) (by decide) (by decide) (by decide)
  unfold frameText
  rcases h with rfl | ⟨hwire, hinflate⟩
  · simp [hne, hhello, hz1]
  · have hfull : strip wire ≠ [] := by
      intro hempty
      rw [hempty] at hwire
      cases hwire
    have hoffer : startsWith "HELLO," (strip wire) = false := by
      obtain ⟨rest, hrest⟩ := List.isPrefixOf_iff_prefix.mp hwire
      rw [← hrest]
      rfl
    simp [hfull, hoffer, hwire, hinflate, hne]

/-- A session without a comma and a number determine the text of an ACK. -/
theorem ackText_inj {session session' number number' : List Char} (h : ',' ∉ session) (h' : ',' ∉ session') :
    "ACK,".toList ++ session ++ ',' :: number ++ ['\n'] = "ACK,".toList ++ session' ++ ',' :: number' ++ ['\n'] ↔
      session = session' ∧ number = number' := by
  refine ⟨fun hsame => ?_, fun ⟨hsession, hnumber⟩ => by rw [hsession, hnumber]⟩
  have hinner : session ++ ',' :: number = session' ++ ',' :: number' := by
    simpa using List.append_cancel_right hsame
  have hcut := congrArg (cut ',') hinner
  rw [cut_append h, cut_append h'] at hcut
  cases hcut
  exact ⟨rfl, rfl⟩

/-- The session that is stripped and the number that is read make the text of the fields as they stand exactly
when neither changes them. -/
theorem map_buildAck_eq_iff {first second : List Char} (hfirst : ',' ∉ first) :
    (int second).map (buildAck (strip first)) = some ("ACK,".toList ++ first ++ ',' :: second ++ ['\n']) ↔
      strip first = first ∧ (int second).map showInt = some second := by
  have hstrip : ',' ∉ strip first := fun hmem => hfirst (mem_of_mem_trim hmem)
  cases int second with
  | none => simp
  | some seq => rw [Option.map_some, Option.map_some, Option.some.injEq, Option.some.injEq, buildAck, ackText_inj hstrip hfirst]

/-- No ACK is an empty line. -/
theorem buildAck_ne_newline (sessionId : List Char) (seq : ℤ) : buildAck sessionId seq ≠ [] ++ ['\n'] := by
  simp [buildAck]

/-- An ACK is taken when its number is the plain form of one. -/
theorem accepts_iff {line session number : List Char} (hline : expectedAckLine line = some (session, number))
    (hsession : ',' ∉ session) (hnumber : ',' ∉ number) :
    accepts line (expectedAckText line) = true ↔ session ≠ [] ∧ isPlainNumber number = true := by
  have htext : expectedAckText line = "ACK,".toList ++ session ++ ',' :: number := by
    rw [expectedAckText, hline]
  have hpieces : getlines ',' (expectedAckText line) = "ACK".toList :: session :: getlines ',' number := by
    rw [htext]
    calc getlines ',' ("ACK,".toList ++ session ++ ',' :: number)
        = getlines ',' ("ACK".toList ++ ',' :: (session ++ ',' :: number)) := by simp
      _ = "ACK".toList :: session :: getlines ',' number := by
        rw [getlines_append (by decide), getlines_append hsession]
  by_cases hempty : number = []
  · have hnone : accepts line (expectedAckText line) = false := by
      rw [accepts, parseAckLine, hpieces, hempty]
      rfl
    have hplain : isPlainNumber number = false := by
      rw [hempty]
      decide
    rw [hnone, hplain]
    simp
  · rw [accepts, parseAckLine, hpieces, getlines_last hnumber hempty]
    by_cases hsome : session = []
    · simp [hsome]
    · cases hread : stoull number with
      | none => simp [isPlainNumber, hread]
      | some seq => simp [isPlainNumber, hread, hsome, htext]

/-- The ground station reads the plain form of a number and writes it back. -/
theorem map_showInt_of_isPlainNumber {text : List Char} (h : isPlainNumber text = true) :
    (int text).map showInt = some text := by
  obtain ⟨seq, _, rfl⟩ := Option.map_eq_some_iff.mp (of_decide_eq_true h)
  have hshow : showNat seq.toNat = showInt (seq.toNat : ℤ) := by simp [showInt]
  rw [hshow, int_showInt_of_lt (by simpa using seq.toNat_lt), Option.map_some]

section

variable {receiver : Receiver} {inflate : List Char → Option (List Char)} {wire line : List Char}

/-- A frame that is identified is answered as its text. -/
theorem Receiver.Identifies.ackFor_eq (hknown : receiver.Identifies (strip line)) (hwire : Carries inflate wire line) :
    receiver.ackFor inflate wire = receiver.answer (strip line) := by
  rw [ackFor, frameText_of_carries hwire hknown, Option.bind_some]

/-- The two sides agree on a telemetry frame whose header is canonical. -/
theorem Receiver.Identifies.agrees_data {first second : List Char} {rest : List (List Char)}
    (hknown : receiver.Identifies (strip line)) (hwire : Carries inflate wire line)
    (hpieces : getlines ',' line = "DATA".toList :: first :: second :: rest)
    (hzero : part (parts line) 0 = "DATA".toList) (hone : part (parts line) 1 = strip first)
    (htwo : part (parts line) 2 = strip second) :
    receiver.Agrees inflate wire line ↔ first ≠ [] ∧ strip first = first ∧ isPlainNumber second = true := by
  have hfirst : ',' ∉ first := notMem_getlines (by rw [hpieces]; simp)
  have hsecond : ',' ∉ second := notMem_getlines (by rw [hpieces]; simp)
  have hline : expectedAckLine line = some (first, second) := by
    unfold expectedAckLine
    rw [hpieces]
    exact if_pos rfl
  have htext : expectedAckText line = "ACK,".toList ++ first ++ ',' :: second := by rw [expectedAckText, hline]
  rw [Agrees, accepts_iff hline hfirst hsecond, hknown.ackFor_eq hwire,
    hknown.answer_data (by rw [parts_strip, hzero]), parts_strip, hone, htwo, int_strip, htext,
    map_buildAck_eq_iff hfirst]
  constructor
  · rintro ⟨⟨hstrip, _⟩, hne, hnumber⟩
    exact ⟨hne, hstrip, hnumber⟩
  · rintro ⟨hne, hstrip, hnumber⟩
    exact ⟨⟨hstrip, map_showInt_of_isPlainNumber hnumber⟩, hne, hnumber⟩

/-- The two sides agree on an event whose session is there and has no white space around it. -/
theorem Receiver.Identifies.agrees_event {first second : List Char} {rest : List (List Char)}
    (hknown : receiver.Identifies (strip line)) (hwire : Carries inflate wire line)
    (hpieces : getlines ',' line = "EVT".toList :: first :: second :: rest)
    (hzero : part (parts line) 0 = "EVT".toList) (htwo : part (parts line) 2 = strip second) :
    receiver.Agrees inflate wire line ↔ second ≠ [] ∧ strip second = second := by
  have hsecond : ',' ∉ second := notMem_getlines (by rw [hpieces]; simp)
  have hstrip : ',' ∉ strip second := fun hmem => hsecond (mem_of_mem_trim hmem)
  have hline : expectedAckLine line = some (second, ['0']) := by
    unfold expectedAckLine
    rw [hpieces]
    rfl
  have htext : expectedAckText line = "ACK,".toList ++ second ++ ',' :: ['0'] := by rw [expectedAckText, hline]
  have hzeroText : showInt 0 = ['0'] := by decide
  have hplain : isPlainNumber ['0'] = true := by decide
  rw [Agrees, accepts_iff hline hsecond (by decide), hknown.ackFor_eq hwire,
    hknown.answer_event (by rw [parts_strip, hzero]), parts_strip, htwo, htext, buildAck, Option.some.injEq,
    ackText_inj hstrip hsecond]
  constructor
  · rintro ⟨⟨hsame, _⟩, hne, _⟩
    exact ⟨hne, hsame⟩
  · rintro ⟨hne, hsame⟩
    exact ⟨⟨hsame, hzeroText⟩, hne, hplain⟩

/-- The two sides do not agree on a frame of a kind that the onboard does not know. -/
theorem Receiver.Identifies.not_agrees_of_none (hknown : receiver.Identifies (strip line))
    (hwire : Carries inflate wire line) (hline : expectedAckLine line = none) :
    ¬receiver.Agrees inflate wire line := by
  rintro ⟨hsame, _⟩
  rw [hknown.ackFor_eq hwire, expectedAckText, hline] at hsame
  rcases hknown.cases with ⟨ack, hack, hof⟩ | ⟨hnone, _⟩
  · rw [hack, Option.some.injEq] at hsame
    cases hof with
    | telemetry _ _ _ hbuilt => exact buildAck_ne_newline _ _ (hbuilt.symm.trans hsame)
    | event _ _ hbuilt => exact buildAck_ne_newline _ _ (hbuilt.symm.trans hsame)
  · rw [hnone] at hsame
    cases hsame

end

/-- Every frame that a receiver can parse, or whose raw header it can read, is answered with the ACK that the
onboard expects and takes exactly when its header is written the way both sides write it back. -/
theorem Receiver.agrees_iff_canonicalHeader {receiver : Receiver} {inflate : List Char → Option (List Char)}
    {wire line : List Char} (hwire : Carries inflate wire line) (hknown : receiver.Identifies (strip line)) :
    receiver.Agrees inflate wire line ↔ canonicalHeader line = true := by
  obtain ⟨kind, first, second, rest, hpieces, hzero, hone, htwo⟩ := hknown.fields
  have hkind := hknown.kind
  rw [parts_strip, hzero] at hkind
  rw [canonicalHeader, hpieces]
  by_cases hplain : strip kind = kind
  · rw [hplain] at hkind hzero
    rcases hkind with rfl | rfl
    · rw [hknown.agrees_data hwire hpieces hzero hone htwo]
      simp [and_assoc]
    · rw [hknown.agrees_event hwire hpieces hzero htwo]
      simp
  · -- white space around the kind: the onboard knows no such frame, and expects no text at all
    have hnot (word : List Char) (hword : strip word = word) : kind ≠ word := fun heq => hplain (by rw [heq, hword])
    have hdata : kind ≠ "DATA".toList := hnot _ (by decide)
    have hevent : kind ≠ "EVT".toList := hnot _ (by decide)
    have hline : expectedAckLine line = none := by
      unfold expectedAckLine
      rw [hpieces]
      exact (if_neg hdata).trans (if_neg hevent)
    simp only [hdata, hevent, decide_false, Bool.false_and, Bool.or_false, Bool.false_eq_true, iff_false]
    exact hknown.not_agrees_of_none hwire hline

/-- The answer to an event that was sent as it is. -/
theorem Receiver.agrees_iff_canonicalHeader_pull :
    Receiver.gui.Agrees (fun _ => none) "EVT,PULL,pi-17-5,3,0,2026-03-01T10:00:00Z,-120,4.0,-,8".toList
      "EVT,PULL,pi-17-5,3,0,2026-03-01T10:00:00Z,-120,4.0,-,8".toList :=
  (agrees_iff_canonicalHeader (Or.inl rfl) (Or.inr (by decide))).mpr (by decide)

/-- A frame whose number has a zero in front is answered without the zero: the onboard refuses the answer. -/
theorem Receiver.not_agrees_paddedNumber :
    ¬∀ (receiver : Receiver) (inflate : List Char → Option (List Char)) (wire line : List Char),
      Carries inflate wire line → receiver.Identifies (strip line) → receiver.Agrees inflate wire line := by
  intro hall
  have hagrees := hall .gui (fun _ => none) "DATA,pi-17-5,07,torn".toList _ (Or.inl rfl) (Or.inr (by decide))
  exact absurd hagrees.1 (by decide)

end Coatheal.Ground
