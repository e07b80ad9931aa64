import Coatheal.Ground.Acknowledgement
import Coatheal.Library.Utf8
import Coatheal.Link.Framing

/-!
# How lines are read on both sides

Both receivers of the ground station decode every chunk by itself and break the
text at its newlines; the reader of a reply joins the chunks before it decodes
them, and stops at a newline or once it has 64 KiB. What the readers on board and
on the ground make of a stream depends on the cut where a chunk can end within a
character, and where a limit is passed by more or less of a read.
-/

namespace Coatheal.Ground

open Library.Chunks Library.PyText Library.Utf8 Framing

/-- The size of a read on the ground. -/
def recvBytes : ℕ := 4096

/-- The default of `max_bytes` in `recv_reply_line`. -/
def maxReplyBytes : ℕ := 65536

/-- The variables of a receiver: the text behind the last newline, the lines it handled and the ACKs it sent. -/
structure Receiving where
  buffer : List Char
  handled : List (List Char)
  acks : List (List Char)
deriving DecidableEq

/-- A line is stripped, and handled if anything is left of it. -/
def Receiver.handleLine (receiver : Receiver) (inflate : List Char → Option (List Char)) (r : Receiving)
    (line : List Char) : Receiving :=
  let text := strip line
  if text = [] then r
  else { r with handled := r.handled ++ [text], acks := r.acks ++ (receiver.ackFor inflate text).toList }

/-- A line leaves the buffer as it is. -/
@[simp]
theorem Receiver.buffer_handleLine (receiver : Receiver) (inflate : List Char → Option (List Char)) (r : Receiving)
    (line : List Char) : (receiver.handleLine inflate r line).buffer = r.buffer := by
  unfold handleLine
  dsimp only
  split
  case isTrue => rfl
  case isFalse => rfl

/-- Handle the lines that are complete, as long as there is a newline in the buffer. -/
def Receiver.handleLines (receiver : Receiver) (inflate : List Char → Option (List Char)) (r : Receiving) :
    Receiving :=
  match _hbreak : breakAt '\n' r.buffer with
  | none => r
  | some (line, rest) => receiver.handleLines inflate (receiver.handleLine inflate { r with buffer := rest } line)
termination_by r.buffer.length
decreasing_by
  rw [buffer_handleLine]
  exact length_lt_of_breakAt _hbreak

/-- The loop of `_handle_connection`: every chunk is decoded by itself. -/
def Receiver.handleConnection (receiver : Receiver) (inflate : List Char → Option (List Char))
    (chunks : List (List UInt8)) : Receiving :=
  chunks.foldl
    (fun r chunk => receiver.handleLines inflate { r with buffer := r.buffer ++ decodeReplace chunk }) ⟨[], [], []⟩

/-- The loop of `recv_reply_line`, with the chunks joined: until a newline, the end, or the limit. -/
def recvUntil (maxBytes : ℕ) (raw : List UInt8) : List (List UInt8) → List UInt8
  | [] => raw
  | data :: unread =>
    if raw.length < maxBytes then
      if data.contains newline then raw ++ data else recvUntil maxBytes (raw ++ data) unread
    else raw

/-- `recv_reply_line`: the first line of what was received. -/
def recvReplyLine (maxBytes : ℕ) (chunks : List (List UInt8)) : List Char :=
  strip ((decodeReplace (recvUntil maxBytes [] chunks)).takeWhile (· ≠ '\n'))

/-- What the readers make of a stream does not depend on how it is cut: the line for the command handler, the lines
of the telemetry client and the bytes left over, the lines that a receiver handles with its ACKs, and the reply. -/
structure FramingLaw (stream : List UInt8) : Prop where
  command : Independent chunkBytes stream (handleClient [])
  lines : ∀ calls recvBuffer, Independent chunkBytes stream fun chunks => observe calls ⟨recvBuffer, chunks⟩
  receivers : ∀ (receiver : Receiver) (inflate : List Char → Option (List Char)),
    Independent recvBytes stream fun chunks =>
      ((receiver.handleConnection inflate chunks).handled, (receiver.handleConnection inflate chunks).acks)
  reply : Independent recvBytes stream (recvReplyLine maxReplyBytes)

/-- A byte that adds nothing to a text: white space at its end, or one more of a character that stays unfinished. -/
def AddsNothing (front : List UInt8) (b : UInt8) : Prop :=
  isSpace (single b) = true ∨ decodeReplace (front ++ [b]) = decodeReplace front

/-- No cut can matter: the first newline is in time for the command server, no chunk can end within a character of a
complete line, and what a read can bring beyond the limit of a reply adds nothing to its line. -/
structure Framed (stream : List UInt8) : Prop where
  inTime : InTime stream
  separate : ∀ front back, stream = front ++ newline :: back → Separate front
  idle : ∀ front b back, stream = front ++ b :: back → newline ∉ front → b ≠ newline →
    maxReplyBytes ≤ front.length → front.length + 1 < maxReplyBytes + recvBytes → AddsNothing front b

/-- The lines of a text that are not blank, stripped. -/
def texts (lines : List (List Char)) : List (List Char) := (lines.map strip).filter (· ≠ [])

/-- The lines that are complete are handled one after the other. -/
theorem Receiver.handleLines_eq (receiver : Receiver) (inflate : List Char → Option (List Char)) (r : Receiving) :
    receiver.handleLines inflate r =
      ⟨(pieces '\n' r.buffer).2, r.handled ++ texts (pieces '\n' r.buffer).1,
        r.acks ++ (texts (pieces '\n' r.buffer).1).flatMap fun text => (receiver.ackFor inflate text).toList⟩ := by
  induction hlength : r.buffer.length using Nat.strong_induction_on generalizing r with
  | _ length ih =>
    rw [handleLines]
    by_cases hmem : '\n' ∈ r.buffer
    · obtain ⟨line, rest, hbuffer, hline⟩ := List.eq_append_cons_of_mem hmem
      have hbreak : breakAt '\n' r.buffer = some (line, rest) := by rw [hbuffer, breakAt_append_cons hline]
      split
      case h_1 hnone => rw [hbreak] at hnone; cases hnone
      case h_2 line' rest' hsome =>
        rw [hbreak] at hsome
        cases hsome
        have hnext : (receiver.handleLine inflate { r with buffer := rest } line).buffer = rest :=
          buffer_handleLine ..
        rw [ih rest.length (hlength ▸ length_lt_of_breakAt hbreak) _ (by rw [hnext]), hnext, hbuffer,
          pieces_append_cons hline]
        unfold handleLine texts
        dsimp only
        split
        case isTrue hblank => simp [hblank]
        case isFalse htext => simp [htext]
    · have hbreak : breakAt '\n' r.buffer = none := breakAt_of_notMem hmem
      split
      case h_1 => simp [pieces_of_notMem hmem, texts]
      case h_2 hsome => rw [hbreak] at hsome; cases hsome

/-- The lines of two parts are those of one after those of the other. -/
theorem texts_append (lines later : List (List Char)) : texts (lines ++ later) = texts lines ++ texts later := by
  rw [texts, List.map_append, List.filter_append]
  rfl

/-- Chunk after chunk, the receiver handles the lines that are complete by then. -/
theorem Receiver.foldl_eq (receiver : Receiver) (inflate : List Char → Option (List Char)) (r : Receiving)
    (hbuffer : '\n' ∉ r.buffer) (chunks : List (List UInt8)) :
    chunks.foldl (fun r chunk => receiver.handleLines inflate { r with buffer := r.buffer ++ decodeReplace chunk }) r =
      receiver.handleLines inflate { r with buffer := r.buffer ++ chunks.flatMap decodeReplace } := by
  induction chunks generalizing r with
  | nil => simp [handleLines_eq, pieces_of_notMem hbuffer, texts]
  | cons chunk rest ih =>
    have hpieces := pieces_append '\n' (r.buffer ++ decodeReplace chunk) (rest.flatMap decodeReplace)
    rw [List.foldl_cons, ih _ (by rw [handleLines_eq]; exact mark_notMem_pieces _ _), List.flatMap_cons,
      ← List.append_assoc, handleLines_eq, handleLines_eq, handleLines_eq]
    dsimp only
    rw [hpieces, texts_append, List.flatMap_append, List.append_assoc, List.append_assoc]

/-- A receiver handles the complete lines of the decoded chunks. -/
theorem Receiver.handleConnection_eq (receiver : Receiver) (inflate : List Char → Option (List Char))
    (chunks : List (List UInt8)) :
    receiver.handleConnection inflate chunks =
      ⟨(pieces '\n' (chunks.flatMap decodeReplace)).2, texts (pieces '\n' (chunks.flatMap decodeReplace)).1,
        (texts (pieces '\n' (chunks.flatMap decodeReplace)).1).flatMap
          fun text => (receiver.ackFor inflate text).toList⟩ := by
  rw [handleConnection, foldl_eq _ _ _ List.not_mem_nil, handleLines_eq]
  simp

/-- A chunk with a newline is read as what is before and what is behind it. -/
theorem decodeReplace_newline (front back : List UInt8) :
    decodeReplace (front ++ newline :: back) = decodeReplace front ++ '\n' :: decodeReplace back := by
  have hnewline : isTail newline = false := by decide
  rw [decodeReplace_append front (by simpa using hnewline), decodeReplace_ascii (by decide)]
  rfl

/-- Without a newline no chunk is read as one. -/
theorem newline_notMem_flatMap {chunks : List (List UInt8)} (h : newline ∉ chunks.flatten) :
    '\n' ∉ chunks.flatMap decodeReplace := by
  intro hin
  obtain ⟨chunk, hchunk, hmem⟩ := List.mem_flatMap.mp hin
  exact newline_notMem_decodeReplace (fun hbyte => h (List.mem_flatten.mpr ⟨chunk, hchunk, hbyte⟩)) hmem

/-- Where no byte can begin a character with the next, the complete lines are read byte by byte, whatever the cut. -/
theorem flatMap_decodeReplace {front back : List UInt8} {chunks : List (List UInt8)}
    (hfront : Separate front) (hback : newline ∉ back) (hflatten : chunks.flatten = front ++ newline :: back) :
    ∃ left, chunks.flatMap decodeReplace = front.map single ++ '\n' :: left ∧ '\n' ∉ left := by
  induction chunks generalizing front with
  | nil => exact absurd (congrArg List.length hflatten) (by simp)
  | cons chunk rest ih =>
    rw [List.flatten_cons] at hflatten
    rw [List.flatMap_cons]
    rcases List.append_eq_append_iff.mp hflatten with ⟨more, rfl, hrest⟩ | ⟨more, rfl, hrest⟩
    · obtain ⟨left, hleft, hnone⟩ := ih (List.isChain_append.mp hfront).2.1 hrest
      have hchunk : decodeReplace chunk = chunk.map single :=
        decodeReplace_of_separate (List.isChain_append.mp hfront).1
      exact ⟨left, by rw [hleft, hchunk, List.map_append, List.append_assoc], hnone⟩
    · cases more with
      | nil =>
        obtain ⟨left, hleft, hnone⟩ := @ih [] List.isChain_nil hrest.symm
        exact ⟨left, by rw [hleft, List.append_nil, decodeReplace_of_separate hfront]; rfl, hnone⟩
      | cons b more =>
        obtain ⟨rfl, rfl⟩ := List.cons.inj hrest
        refine ⟨decodeReplace more ++ rest.flatMap decodeReplace, ?_, ?_⟩
        · rw [decodeReplace_newline, decodeReplace_of_separate hfront, List.append_assoc, List.cons_append]
        · obtain ⟨hmore, hlater⟩ := not_or.mp (List.mem_append.not.mp hback)
          exact List.mem_append.not.mpr
            (not_or.mpr ⟨newline_notMem_decodeReplace hmore, newline_notMem_flatMap hlater⟩)

/-- Stripping keeps what is not white space. -/
theorem countP_texts {p : Char → Bool} (h : ∀ c, isSpace c = true → p c = false) (lines : List (List Char)) :
    (texts lines).flatten.countP p = lines.flatten.countP p := by
  induction lines with
  | nil => rfl
  | cons line rest ih =>
    have hline : (texts [line]).flatten.countP p = line.countP p := by
      have hstrip : (strip line).countP p = line.countP p := Library.Text.countP_trim h line
      rw [← hstrip, texts, List.map_singleton]
      by_cases hblank : strip line = []
      · rw [hblank]
        rfl
      · have hkept : [strip line].filter (· ≠ []) = [strip line] :=
          List.filter_eq_self.mpr fun text htext => by rw [List.mem_singleton.mp htext]; exact decide_eq_true hblank
        rw [hkept, List.flatten_singleton]
    rw [← List.singleton_append, texts_append, List.flatten_append, List.flatten_append, List.countP_append,
      List.countP_append, ih, hline, List.flatten_singleton]

/-- The replacements in the lines that are handled are those before the last newline. -/
theorem countP_handled {front left : List Char} (hleft : '\n' ∉ left) :
    (texts (pieces '\n' (front ++ '\n' :: left)).1).flatten.count replacement = front.count replacement := by
  have hspace : ∀ c, isSpace c = true → (c == replacement) = false := by
    intro c hc
    refine beq_false_of_ne fun heq => ?_
    rw [heq] at hc
    exact absurd hc (by decide)
  have hmark : ('\n' == replacement) = false := by decide
  have hall := countP_pieces (p := (· == replacement)) hmark (front ++ '\n' :: left)
  rw [pieces_left hleft, List.countP_append, List.countP_cons_of_neg (by decide)] at hall
  have hlines := Nat.add_right_cancel hall
  rw [List.count, countP_texts hspace, hlines]

/-- Byte by byte, a stream is read as its single bytes. -/
theorem flatMap_singles (stream : List UInt8) : (singles stream).flatMap decodeReplace = stream.map single := by
  induction stream with
  | nil => rfl
  | cons b rest ih =>
    change decodeReplace [b] ++ (singles rest).flatMap decodeReplace = _
    rw [decodeReplace_one, ih]
    rfl

/-- Two bytes of a complete line that belong together are handled differently when they come apart. -/
theorem not_independent_of_follows {front back left : List UInt8} {a b : UInt8} (hfollows : follows a b = true)
    (hleft : newline ∉ left) (receiver : Receiver) (inflate : List Char → Option (List Char)) :
    ¬ Independent recvBytes (front ++ a :: b :: (back ++ newline :: left)) fun chunks =>
      ((receiver.handleConnection inflate chunks).handled, (receiver.handleConnection inflate chunks).acks) := by
  intro hindependent
  have hsingles (part : List UInt8) : IsSplit recvBytes part (singles part) := isSplit_singles (by decide) part
  have hpair : IsSplit recvBytes [a, b] [[a, b]] := isSplit_one (List.cons_ne_nil a [b]) (by
    rw [List.length_cons, List.length_singleton]
    decide)
  have hsame := hindependent _ _ (hsingles _)
    ((hsingles front).append (hpair.append (hsingles (back ++ newline :: left))))
  have hend : '\n' ∉ left.map single := by
    rw [← flatMap_singles]
    exact newline_notMem_flatMap (by rwa [flatten_singles])
  obtain ⟨hapart, htogether⟩ := count_replacement_of_follows hfollows
  have hslow : (singles (front ++ a :: b :: (back ++ newline :: left))).flatMap decodeReplace =
      (front.map single ++ [single a, single b] ++ back.map single) ++ '\n' :: left.map single := by
    rw [flatMap_singles]
    simp [single, newline]
  have hfast : (singles front ++ ([[a, b]] ++ singles (back ++ newline :: left))).flatMap decodeReplace =
      (front.map single ++ decodeReplace [a, b] ++ back.map single) ++ '\n' :: left.map single := by
    rw [List.flatMap_append, List.flatMap_append, flatMap_singles, flatMap_singles]
    simp [single, newline]
  have hhandled := congrArg (fun outcome => outcome.1.flatten.count replacement) hsame
  dsimp only at hhandled
  rw [Receiver.handleConnection_eq, Receiver.handleConnection_eq, hslow, hfast, countP_handled hend,
    countP_handled hend, hapart] at hhandled
  simp only [List.count_append, List.count_cons_self, List.count_nil] at hhandled
  omega

/-- What a receiver handles does not depend on the cut exactly when no chunk can end within a character of a
complete line. -/
theorem handled_independent_iff (stream : List UInt8) :
    (∀ (receiver : Receiver) (inflate : List Char → Option (List Char)),
      Independent recvBytes stream fun chunks =>
        ((receiver.handleConnection inflate chunks).handled, (receiver.handleConnection inflate chunks).acks)) ↔
      ∀ front back, stream = front ++ newline :: back → Separate front := by
  constructor
  · rintro h front rest rfl
    by_contra hjoined
    obtain ⟨before, a, b, after, rfl, hfollows⟩ := exists_follows_of_not_separate hjoined
    obtain ⟨back, left, hlast, hleft⟩ := exists_last_of_mem
      (List.mem_append_right after (List.mem_cons_self (a := newline) (l := rest)))
    have hstream : before ++ a :: b :: after ++ newline :: rest = before ++ a :: b :: (back ++ newline :: left) := by
      rw [← hlast]
      simp
    exact not_independent_of_follows hfollows hleft .gui (fun _ => none) (hstream ▸ h .gui fun _ => none)
  · intro h receiver inflate chunks chunks' hsplit hsplit'
    by_cases hmem : newline ∈ stream
    · obtain ⟨front, back, rfl, hback⟩ := exists_last_of_mem hmem
      have hfront := h front back rfl
      obtain ⟨left, hleft, hnone⟩ := flatMap_decodeReplace hfront hback hsplit.flatten_eq
      obtain ⟨left', hleft', hnone'⟩ := flatMap_decodeReplace hfront hback hsplit'.flatten_eq
      have hlines {left : List Char} (hnone : '\n' ∉ left) : (pieces '\n' (front.map single ++ '\n' :: left)).1 =
          (pieces '\n' (front.map single ++ ['\n'])).1 := by
        rw [pieces_append, pieces_append _ _ ['\n'], pieces_append_cons (mark_notMem_pieces _ _),
          pieces_append_cons (mark_notMem_pieces _ _), pieces_of_notMem hnone, pieces_of_notMem List.not_mem_nil]
      dsimp only
      rw [Receiver.handleConnection_eq, Receiver.handleConnection_eq, hleft, hleft', hlines hnone, hlines hnone']
    · have hnone {chunks : List (List UInt8)} (hsplit : IsSplit recvBytes stream chunks) :
          (pieces '\n' (chunks.flatMap decodeReplace)).1 = [] := by
        rw [pieces_of_notMem (newline_notMem_flatMap (by rwa [hsplit.flatten_eq]))]
      dsimp only
      rw [Receiver.handleConnection_eq, Receiver.handleConnection_eq, hnone hsplit, hnone hsplit']

/-- The first line of what was decoded is what was decoded of the first line. -/
theorem takeWhile_decodeReplace (raw : List UInt8) :
    (decodeReplace raw).takeWhile (· ≠ '\n') = decodeReplace (raw.takeWhile (· ≠ newline)) := by
  have hkeep {α : Type} [DecidableEq α] {mark : α} {line : List α} (h : mark ∉ line) :
      ∀ c ∈ line, decide (c ≠ mark) = true := fun c hc => decide_eq_true fun heq => h (heq ▸ hc)
  by_cases hmem : newline ∈ raw
  · obtain ⟨line, rest, rfl, hline⟩ := List.eq_append_cons_of_mem hmem
    rw [decodeReplace_newline, List.takeWhile_append_of_pos (hkeep (newline_notMem_decodeReplace hline)),
      List.takeWhile_append_of_pos (hkeep hline), List.takeWhile_cons_of_neg (by simp),
      List.takeWhile_cons_of_neg (by simp), List.append_nil, List.append_nil]
  · rw [List.takeWhile_eq_self_iff.mpr (hkeep (newline_notMem_decodeReplace hmem)),
      List.takeWhile_eq_self_iff.mpr (hkeep hmem)]

/-- The text of the bytes of a reply's line that were received. -/
def replyText (line : List UInt8) (received : ℕ) : List Char := strip (decodeReplace (line.take received))

/-- The first line of a stream. -/
def firstLine (stream : List UInt8) : List UInt8 := stream.takeWhile (· ≠ newline)

/-- The first line of a beginning is a beginning of the first line. -/
theorem takeWhile_take {α : Type} (p : α → Bool) (count : ℕ) (stream : List α) :
    (stream.take count).takeWhile p = (stream.takeWhile p).take count := by
  induction stream generalizing count with
  | nil => simp
  | cons a rest ih =>
    cases count with
    | zero => rfl
    | succ count =>
      rw [List.take_succ_cons, List.takeWhile_cons, List.takeWhile_cons, ih]
      split
      case isTrue => rfl
      case isFalse => rfl

/-- What is received is a beginning of the stream, no longer than a read behind the limit; it is all of it, or
holds a newline, or reaches the limit. -/
theorem recvUntil_spec {limit maxBytes : ℕ} {raw stream : List UInt8} {chunks : List (List UInt8)}
    (hsplit : IsSplit limit stream chunks) (hlength : raw.length < maxBytes + limit) :
    ∃ received, recvUntil maxBytes raw chunks = (raw ++ stream).take received ∧ received < maxBytes + limit ∧
      (maxBytes ≤ received ∨ (raw ++ stream).length ≤ received ∨ newline ∈ (raw ++ stream).take received) := by
  induction chunks generalizing raw stream with
  | nil =>
    have hnil : stream = [] := hsplit.flatten_eq.symm
    exact ⟨raw.length, by rw [hnil]; simp [recvUntil], hlength, Or.inr (Or.inl (by rw [hnil]; simp))⟩
  | cons data unread ih =>
    have hall : raw ++ stream = (raw ++ data) ++ unread.flatten := by
      rw [← hsplit.flatten_eq, List.flatten_cons, List.append_assoc]
    have hdata : data.length ≤ limit := hsplit.length_le data List.mem_cons_self
    rw [recvUntil]
    split
    case isTrue hmore =>
      have hnext : (raw ++ data).length < maxBytes + limit := by
        rw [List.length_append]
        omega
      rw [hall]
      split
      case isTrue hnewline =>
        have hmem : newline ∈ data := List.contains_iff_mem.mp hnewline
        refine ⟨(raw ++ data).length, by rw [List.take_left], hnext, Or.inr (Or.inr ?_)⟩
        rw [List.take_left]
        exact List.mem_append_right raw hmem
      case isFalse => exact ih hsplit.tail hnext
    case isFalse hfull =>
      exact ⟨raw.length, by rw [List.take_left], hlength, Or.inl (not_lt.mp hfull)⟩

/-- A reply is the text of the part of its line that was received: all of it, or the limit and less than a read
more. -/
theorem recvReplyLine_eq {stream : List UInt8} {chunks : List (List UInt8)} (hsplit : IsSplit recvBytes stream chunks) :
    ∃ received, maxReplyBytes ≤ received ∧ received < maxReplyBytes + recvBytes ∧
      recvReplyLine maxReplyBytes chunks = replyText (firstLine stream) received := by
  have hstart : ([] : List UInt8).length < maxReplyBytes + recvBytes := by decide
  obtain ⟨received, hraw, hbound, hend⟩ := @recvUntil_spec recvBytes maxReplyBytes _ _ _ hsplit hstart
  rw [List.nil_append] at hraw hend
  have htext : recvReplyLine maxReplyBytes chunks = replyText (firstLine stream) received := by
    rw [recvReplyLine, takeWhile_decodeReplace, hraw, takeWhile_take]
    rfl
  rcases le_or_gt maxReplyBytes received with hfull | hshort
  · exact ⟨received, hfull, hbound, htext⟩
  · have hline : (firstLine stream).length ≤ received := by
      rcases hend with hfull | hall | hmem
      · exact absurd hfull (not_le.mpr hshort)
      · exact le_trans (List.takeWhile_prefix _).length_le hall
      · by_contra hlong
        rw [not_le] at hlong
        have hwhole : stream.take received = (firstLine stream).take received := by
          obtain ⟨later, hlater⟩ := List.takeWhile_prefix (fun b => decide (b ≠ newline)) (l := stream)
          calc stream.take received = (firstLine stream ++ later).take received := by rw [firstLine, hlater]
            _ = (firstLine stream).take received := List.take_append_of_le_length hlong.le
        rw [hwhole] at hmem
        exact absurd (List.mem_takeWhile_imp (List.mem_of_mem_take hmem)) (by simp)
    refine ⟨maxReplyBytes, le_rfl, by decide, ?_⟩
    rw [htext, replyText, replyText, List.take_of_length_le hline, List.take_of_length_le (hline.trans hshort.le)]

/-- Chunks without a newline are received as long as the limit was not reached before the last of them. -/
theorem recvUntil_append {limit maxBytes : ℕ} {raw stream : List UInt8} {chunks : List (List UInt8)}
    (hsplit : IsSplit limit stream chunks) (later : List (List UInt8)) (hnone : newline ∉ stream)
    (hlength : (raw ++ stream).length ≤ maxBytes) :
    recvUntil maxBytes raw (chunks ++ later) = recvUntil maxBytes (raw ++ stream) later := by
  induction chunks generalizing raw stream with
  | nil =>
    have hnil : stream = [] := hsplit.flatten_eq.symm
    rw [hnil, List.append_nil, List.nil_append]
  | cons data unread ih =>
    have hall : raw ++ stream = (raw ++ data) ++ unread.flatten := by
      rw [← hsplit.flatten_eq, List.flatten_cons, List.append_assoc]
    have hdata : 0 < data.length := hsplit.length_pos
    rw [← hsplit.flatten_eq, List.flatten_cons] at hnone
    obtain ⟨hfirst, hrest⟩ := not_or.mp (List.mem_append.not.mp hnone)
    have hmore : raw.length < maxBytes := by
      rw [hall, List.length_append, List.length_append] at hlength
      omega
    rw [hall] at hlength ⊢
    rw [List.cons_append, recvUntil, if_pos hmore, if_neg (by rwa [List.contains_iff_mem])]
    exact ih hsplit.tail hrest hlength

/-- Once the limit is reached nothing more is received. -/
theorem recvUntil_full {maxBytes : ℕ} {raw : List UInt8} (h : maxBytes ≤ raw.length) (chunks : List (List UInt8)) :
    recvUntil maxBytes raw chunks = raw := by
  cases chunks with
  | nil => rfl
  | cons data unread => exact if_neg (not_lt.mpr h)

/-- Any part behind the limit that is less than a read can be what was received. -/
theorem exists_recvReplyLine {head : List UInt8} (tail : List UInt8) (hnone : newline ∉ head)
    (hlow : maxReplyBytes ≤ head.length) (hhigh : head.length < maxReplyBytes + recvBytes) :
    ∃ chunks, IsSplit recvBytes (head ++ tail) chunks ∧
      recvReplyLine maxReplyBytes chunks = strip (decodeReplace head) := by
  obtain ⟨slow, fast, rfl, hslow⟩ : ∃ slow fast, head = slow ++ fast ∧ slow.length = maxReplyBytes - 1 :=
    ⟨head.take (maxReplyBytes - 1), head.drop (maxReplyBytes - 1), (List.take_append_drop _ _).symm,
      List.length_take_of_le (le_trans (Nat.sub_le _ _) hlow)⟩
  have hone : 0 < maxReplyBytes := by decide
  rw [List.length_append] at hlow hhigh
  obtain ⟨hfirst, hrest⟩ := not_or.mp (List.mem_append.not.mp hnone)
  have hsingles (part : List UInt8) : IsSplit recvBytes part (singles part) := isSplit_singles (by decide) part
  have hfast : IsSplit recvBytes fast [fast] :=
    isSplit_one (List.ne_nil_of_length_pos (by omega)) (by omega)
  have hraw : recvUntil maxReplyBytes [] (singles slow ++ ([fast] ++ singles tail)) = slow ++ fast := by
    rw [recvUntil_append (hsingles slow) _ hfirst (by rw [List.nil_append]; omega), List.nil_append,
      List.singleton_append, recvUntil, if_pos (by omega), if_neg (by rwa [List.contains_iff_mem]),
      recvUntil_full (by rw [List.length_append]; exact hlow)]
  have hline : (slow ++ fast).takeWhile (· ≠ newline) = slow ++ fast :=
    List.takeWhile_eq_self_iff.mpr fun b hb => decide_eq_true fun heq => hnone (heq ▸ hb)
  refine ⟨singles slow ++ ([fast] ++ singles tail), ?_, ?_⟩
  · rw [List.append_assoc]
    exact (hsingles slow).append (hfast.append (hsingles tail))
  · rw [recvReplyLine, hraw, takeWhile_decodeReplace, hline]

/-- A text that was stripped stays the same under one more byte exactly when the byte adds nothing. -/
theorem strip_snoc_iff (front : List UInt8) (b : UInt8) :
    strip (decodeReplace (front ++ [b])) = strip (decodeReplace front) ↔ AddsNothing front b := by
  have hcount (p : Char → Bool) (hblank : ∀ c, isSpace c = true → p c = false)
      (h : strip (decodeReplace (front ++ [b])) = strip (decodeReplace front)) :
      (decodeReplace (front ++ [b])).countP p = (decodeReplace front).countP p := by
    rw [← Library.Text.countP_trim hblank, ← Library.Text.countP_trim hblank (decodeReplace front)]
    exact congrArg _ h
  constructor
  · intro h
    rcases grows_snoc front b with hafter | ⟨before, c, hbefore, hafter⟩
    · by_contra hadds
      have hword := Bool.eq_false_iff.mpr (not_or.mp hadds).1
      have hsame := hcount (fun c => !isSpace c) (fun c hc => by simp [hc]) h
      rw [hafter, List.countP_append, List.countP_singleton, hword] at hsame
      simp at hsame
    · have hsame := hcount (· == replacement)
        (fun c hc => beq_false_of_ne fun heq => absurd (heq ▸ hc : isSpace replacement = true) (by decide)) h
      rw [hafter, hbefore, List.countP_append, List.countP_append, List.countP_singleton, List.countP_singleton] at hsame
      by_cases hc : c = replacement
      · exact Or.inr (by rw [hafter, hbefore, hc])
      · rw [beq_false_of_ne hc] at hsame
        simp at hsame
  · rintro (hspace | hsame)
    · have hascii : b.toNat < 0x80 := by
        by_contra hbeyond
        rw [single, if_neg hbeyond] at hspace
        exact absurd hspace (by decide)
      have htail : isTail b = false := decide_eq_false (by omega)
      rw [decodeReplace_append front (by simpa using htail), decodeReplace_one]
      exact Library.Text.trim_append_right (by simpa using hspace)
    · rw [hsame]

/-- The text of a reply does not depend on the cut exactly when what a read can bring behind the limit adds nothing
to its line. -/
theorem reply_independent_iff (stream : List UInt8) :
    Independent recvBytes stream (recvReplyLine maxReplyBytes) ↔
      ∀ front b back, stream = front ++ b :: back → newline ∉ front → b ≠ newline →
        maxReplyBytes ≤ front.length → front.length + 1 < maxReplyBytes + recvBytes → AddsNothing front b := by
  constructor
  · rintro h front b back rfl hfront hb hlow hhigh
    have hmore : newline ∉ front ++ [b] := by
      simpa [List.mem_append, hfront] using Ne.symm hb
    obtain ⟨chunks, hsplit, htext⟩ := exists_recvReplyLine (b :: back) hfront hlow (by omega)
    obtain ⟨chunks', hsplit', htext'⟩ := exists_recvReplyLine back hmore
      (by rw [List.length_append]; omega) (by simpa using hhigh)
    rw [List.append_assoc, List.singleton_append] at hsplit'
    rw [← strip_snoc_iff, ← htext, ← htext']
    exact h chunks' chunks hsplit' hsplit
  · intro h
    have hsame : ∀ received, maxReplyBytes ≤ received → received < maxReplyBytes + recvBytes →
        replyText (firstLine stream) received = replyText (firstLine stream) maxReplyBytes := by
      intro received hlow
      induction received, hlow using Nat.le_induction with
      | base => exact fun _ => rfl
      | succ received hlow ih =>
        intro hhigh
        refine Eq.trans ?_ (ih (by omega))
        rcases Nat.lt_or_ge received (firstLine stream).length with hwithin | hbehind
        · obtain ⟨later, hlater⟩ := List.takeWhile_prefix (fun b => decide (b ≠ newline)) (l := stream)
          have hmember {b : UInt8} (hb : b ∈ firstLine stream) : b ≠ newline := by
            simpa using List.mem_takeWhile_imp hb
          have hstream : stream = (firstLine stream).take received ++
              (firstLine stream)[received] :: ((firstLine stream).drop (received + 1) ++ later) := by
            rw [← List.cons_append, ← List.drop_eq_getElem_cons hwithin, ← List.append_assoc, List.take_append_drop]
            exact hlater.symm
          have hlength : ((firstLine stream).take received).length = received :=
            List.length_take_of_le hwithin.le
          have hadds := h _ _ _ hstream (fun hin => hmember (List.mem_of_mem_take hin) rfl)
            (hmember (List.getElem_mem hwithin)) (by omega) (by omega)
          rw [replyText, replyText, ← List.take_concat_get' _ _ hwithin]
          exact (strip_snoc_iff _ _).mpr hadds
        · rw [replyText, replyText, List.take_of_length_le hbehind, List.take_of_length_le (by omega)]
    intro chunks chunks' hsplit hsplit'
    obtain ⟨received, hlow, hhigh, htext⟩ := recvReplyLine_eq hsplit
    obtain ⟨received', hlow', hhigh', htext'⟩ := recvReplyLine_eq hsplit'
    rw [htext, htext', hsame received hlow hhigh, hsame received' hlow' hhigh']

/-- What the readers make of a stream does not depend on the cut exactly when no cut can matter. -/
theorem framingLaw_iff_framed (stream : List UInt8) : FramingLaw stream ↔ Framed stream := by
  constructor
  · intro h
    exact ⟨(handleClient_independent_iff stream).mp h.command, (handled_independent_iff stream).mp h.receivers,
      (reply_independent_iff stream).mp h.reply⟩
  · intro h
    exact ⟨(handleClient_independent_iff stream).mpr h.inTime,
      fun calls recvBuffer => readLines_independent chunkBytes calls recvBuffer stream,
      (handled_independent_iff stream).mpr h.separate, (reply_independent_iff stream).mpr h.idle⟩

/-- The frame that begins with `DATA,é,1`, cut within its one character beyond ASCII. -/
def cutFrame : List (List UInt8) := [[68, 65, 84, 65, 44, 0xC3], [0xA9, 44, 49, 10]]

/-- Cut within a character of its session, a frame is answered for another session. -/
theorem not_framingLaw_cutFrame : ¬ FramingLaw cutFrame.flatten := by
  intro h
  have hwhole : IsSplit recvBytes cutFrame.flatten [cutFrame.flatten] := isSplit_one (by decide) (by decide)
  have hcut : IsSplit recvBytes cutFrame.flatten cutFrame := ⟨rfl, by decide, by decide⟩
  have hsame := congrArg Prod.snd (h.receivers .server (fun _ => none) _ _ hwhole hcut)
  dsimp only at hsame
  rw [Receiver.handleConnection_eq, Receiver.handleConnection_eq] at hsame
  exact absurd hsame (by decide +kernel)

end Coatheal.Ground
