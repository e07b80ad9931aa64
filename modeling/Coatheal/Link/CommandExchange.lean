import Coatheal.Ground.Layout
import Coatheal.Ground.Silence
import Coatheal.Library.Utf8
import Coatheal.Link.Framing
import Coatheal.Link.PacedReply
import Mathlib.Data.List.DropRight

/-!
# An exchange from end to end

The dispatcher sends the text of the operator as one line and reads the reply up to
its newline; the onboard takes the first line of the connection to its handler and
sends what the handler answers. Both read the stream in pieces that the network cuts
as it likes. A request that the dispatcher sends arrives as it was typed, and a
reply that was sent whole is read as the handler meant it.
-/

namespace Coatheal.Link

open Library Library.Chunks Library.PyText
open Library.Text (cut cut_append cut_eq_none trim)
open Framing (newline popReturn handleClient)
open Ground (CommandResponse parseCommandResponse ack requestTooLong maxRequestBytes)
open PacedReply (sendPacedReply start)

/-- The `payload` of `_SendJob`. -/
def payload (command : List Char) : List UInt8 := Utf8.encode (strip command ++ ['\n'])

/-- What `recv_reply_line` reads: up to a read with a newline, the end of the connection or the limit. -/
def recvReply (maxBytes total : ℕ) : List (List UInt8) → List UInt8
  | [] => []
  | data :: unread =>
    if maxBytes ≤ total then []
    else if newline ∈ data then data
    else data ++ recvReply maxBytes (total + data.length) unread

/-- The `max_bytes` of `recv_reply_line`. -/
def maxReplyBytes : ℕ := 65536

/-- The size of a read of `recv_reply_line`. -/
def replyReadBytes : ℕ := 4096

/-- `recv_reply_line`. A read that times out raises an error. -/
def recvReplyLine (reads : List (List UInt8)) : List Char :=
  strip ((Utf8.decodeReplace (recvReply maxReplyBytes 0 reads)).takeWhile (· ≠ '\n'))

/-- What `_SendJob` makes of a reply. -/
def responseOf (command raw : List Char) : CommandResponse :=
  if raw = [] then ⟨false, command, [], "empty reply".toList, []⟩ else parseCommandResponse raw

/-- A `NACK` reply. -/
def nack (command message : List Char) : List Char := "NACK,".toList ++ command ++ ',' :: message

/-- What a handler answers. -/
def answer (ok : Bool) (command message : List Char) : List Char :=
  if ok then ack command message else nack command message

/-- The bytes of an answer, with its newline. -/
def replyBytes (ok : Bool) (command message : List Char) : List UInt8 :=
  Utf8.encode (answer ok command message) ++ [newline]

/-- The reply of `HandleClient`, if it has a line for the handler. -/
def serve (handler : List UInt8 → List UInt8) (reads : List (List UInt8)) : Option (List UInt8) :=
  (handleClient [] reads).map fun line => handler line ++ [newline]

/-- What of a command comes before a newline that the operator put into it. -/
def firstLine (command : List Char) : List Char := (strip command).takeWhile (· ≠ '\n')

/-- A text without the blanks at its end. -/
def stripEnd (text : List Char) : List Char := text.rdropWhile isSpace

/-- A reply as it is meant. -/
def meant (ok : Bool) (command message : List Char) : CommandResponse where
  ok := ok
  command := command
  body := if ok then stripEnd message else []
  error := if ok then [] else stripEnd message
  raw := answer ok command (stripEnd message)

section Bytes

/-- A newline in the bytes is a newline in the text. -/
theorem newline_mem_decodeReplace {bytes : List UInt8} (h : newline ∈ bytes) : '\n' ∈ Utf8.decodeReplace bytes := by
  obtain ⟨line, rest, rfl, -⟩ := List.eq_append_cons_of_mem h
  have htail : ∀ b ∈ (newline :: rest).head?, Utf8.isTail b = false := by
    intro b hb
    cases hb
    decide
  rw [Utf8.decodeReplace_append line htail, Utf8.decodeReplace_ascii (by decide)]
  exact List.mem_append_right _ List.mem_cons_self

/-- A text without a newline has no newline in its bytes. -/
theorem newline_notMem_encode {text : List Char} (h : '\n' ∉ text) : newline ∉ Utf8.encode text := by
  intro hmem
  have hback := newline_mem_decodeReplace hmem
  rw [Utf8.decodeReplace_encode] at hback
  exact h hback

/-- The bytes of a text that is put together. -/
theorem encode_append (front back : List Char) : Utf8.encode (front ++ back) = Utf8.encode front ++ Utf8.encode back :=
  List.flatMap_append

/-- The byte of a newline. -/
theorem encode_newline (rest : List Char) : Utf8.encode ('\n' :: rest) = newline :: Utf8.encode rest := by
  have hsingle : Utf8.encode ['\n'] = [newline] := by decide
  rw [← List.singleton_append, encode_append, hsingle, List.singleton_append]

/-- The number of bytes of a text. -/
theorem length_encode (text : List Char) : (Utf8.encode text).length = (text.map Char.utf8Size).sum := by
  induction text with
  | nil => rfl
  | cons c text ih =>
    rw [Utf8.encode, List.flatMap_cons, ← Utf8.encode, List.length_append, ih, String.length_utf8EncodeChar,
      List.map_cons, List.sum_cons]

end Bytes

section Request

/-- A command is its first line, and what the operator put behind a newline. -/
theorem exists_payload (command : List Char) :
    ∃ rest, payload command = Utf8.encode (firstLine command) ++ newline :: rest := by
  unfold payload firstLine
  rcases hrest : (strip command).dropWhile (· ≠ '\n') with _ | ⟨c, later⟩
  · have hall : (strip command).takeWhile (· ≠ '\n') = strip command := by
      have happend := List.takeWhile_append_dropWhile (p := (· ≠ '\n')) (l := strip command)
      rwa [hrest, List.append_nil] at happend
    refine ⟨[], ?_⟩
    rw [hall, encode_append, encode_newline]
    rfl
  · have hc : c = '\n' := by
      have hhead := List.head?_dropWhile_not (p := (· ≠ '\n')) (l := strip command)
      rw [hrest] at hhead
      simpa using hhead
    have happend := List.takeWhile_append_dropWhile (p := (· ≠ '\n')) (l := strip command)
    rw [hrest, hc] at happend
    refine ⟨Utf8.encode (later ++ ['\n']), ?_⟩
    rw [← encode_newline, ← encode_append, ← List.cons_append, ← List.append_assoc, happend]

/-- The first line has no newline. -/
theorem newline_notMem_firstLine (command : List Char) : '\n' ∉ firstLine command := by
  intro hmem
  simpa using List.mem_takeWhile_imp hmem

/-- The line that the handler gets for a command. -/
def heard (command : List Char) : List UInt8 := popReturn (Utf8.encode (firstLine command))

/-- A command without a newline is heard as it is. -/
theorem heard_eq {command : List Char} (h : '\n' ∉ strip command) : heard command = Utf8.encode (strip command) := by
  have hall : firstLine command = strip command := List.takeWhile_eq_self_iff.mpr fun c hc =>
    decide_eq_true fun heq => h (heq ▸ hc)
  unfold heard popReturn
  rw [hall, if_neg]
  intro hlast
  -- a carriage return at the end would be a blank that was not stripped
  obtain ⟨front, hbytes⟩ : ∃ front, Utf8.encode (strip command) = front ++ [13] :=
    ⟨_, (List.dropLast_append_getLast? _ hlast).symm⟩
  have htext := congrArg Utf8.decodeReplace hbytes
  have htail : ∀ b ∈ ([13] : List UInt8).head?, Utf8.isTail b = false := by
    intro b hb
    cases hb
    decide
  have hreturn : Utf8.decodeReplace [13] = ['\r'] := by decide
  rw [Utf8.decodeReplace_encode, Utf8.decodeReplace_append front htail, hreturn] at htext
  have hend := (ends_of_trim_eq_self (strip_strip command)).2 '\r' (by rw [htext]; simp)
  exact absurd hend (by decide)

/-- The handler gets the first line of a request that was not too long, however it comes. -/
theorem handleClient_payload {command : List Char} (hfits : requestTooLong command = false)
    {reads : List (List UInt8)} (hreads : IsSplit Framing.chunkBytes (payload command) reads) :
    handleClient [] reads = some (heard command) := by
  obtain ⟨rest, hpayload⟩ := exists_payload command
  have hlength : (payload command).length ≤ maxRequestBytes := by
    have hsum := not_lt.mp (of_decide_eq_false hfits)
    unfold payload
    rw [encode_append, List.length_append, length_encode]
    exact hsum
  refine Framing.handleClient_of_short hreads.flatten_eq List.not_mem_nil
    (newline_notMem_encode (newline_notMem_firstLine command)) (by rw [List.nil_append, hpayload]) ?_
  have hfirst := congrArg List.length hpayload
  rw [List.length_append] at hfirst
  have hmax : maxRequestBytes ≤ Framing.kMaxLineBytes := by decide
  omega

end Request

section Reply

/-- The first line of a stream is read however it comes, with some of what is behind it. -/
theorem exists_recvReply {maxBytes total : ℕ} {line rest : List UInt8} (hline : newline ∉ line)
    (hshort : total + line.length < maxBytes) {reads : List (List UInt8)}
    (hreads : reads.flatten = line ++ newline :: rest) :
    ∃ more, recvReply maxBytes total reads = line ++ newline :: more := by
  induction reads generalizing total line with
  | nil =>
    rw [List.flatten_nil] at hreads
    exact absurd hreads (by simp)
  | cons data unread ih =>
    rw [List.flatten_cons] at hreads
    rw [recvReply, if_neg (by omega)]
    by_cases hmem : newline ∈ data
    · obtain ⟨line', rest', rfl, hline'⟩ := List.eq_append_cons_of_mem hmem
      have hsame := congrArg (breakAt newline) hreads
      rw [List.append_assoc, List.cons_append, breakAt_append_cons hline', breakAt_append_cons hline] at hsame
      rw [if_pos hmem]
      cases hsame
      exact ⟨rest', rfl⟩
    · rw [if_neg hmem]
      -- all of this read is in front of the newline
      obtain ⟨back, rfl, hback⟩ : ∃ back, line = data ++ back ∧ unread.flatten = back ++ newline :: rest := by
        rcases List.append_eq_append_iff.mp hreads with ⟨back, hfront, hback⟩ | ⟨back, hfront, hback⟩
        · exact ⟨back, hfront, hback⟩
        · cases back with
          | nil => exact ⟨[], by simpa using hfront.symm, by simpa using hback.symm⟩
          | cons b back =>
            cases hback
            exact absurd (hfront ▸ List.mem_append_right line List.mem_cons_self) hmem
      rw [List.length_append] at hshort
      obtain ⟨more, hmore⟩ := @ih (total + data.length) back (fun hin => hline (List.mem_append_right data hin))
        (by omega) hback
      exact ⟨more, by rw [hmore, List.append_assoc]⟩

/-- The reply is read as the text of its first line. -/
theorem recvReplyLine_eq {text : List Char} (htext : '\n' ∉ text) (hshort : (Utf8.encode text).length < maxReplyBytes)
    {reads : List (List UInt8)} {rest : List UInt8} (hreads : reads.flatten = Utf8.encode text ++ newline :: rest) :
    recvReplyLine reads = strip text := by
  obtain ⟨more, hmore⟩ := exists_recvReply (newline_notMem_encode htext) (by rwa [Nat.zero_add]) hreads
  have htail : ∀ b ∈ (newline :: more).head?, Utf8.isTail b = false := by
    intro b hb
    cases hb
    decide
  have hkept : ∀ c ∈ text, decide (c ≠ '\n') = true := fun c hc => decide_eq_true fun heq => htext (heq ▸ hc)
  unfold recvReplyLine
  rw [hmore, Utf8.decodeReplace_append _ htail, Utf8.decodeReplace_encode, Utf8.decodeReplace_ascii (by decide),
    List.takeWhile_append_of_pos hkept, List.takeWhile_cons_of_neg (by decide), List.append_nil]

/-- Blanks at the end of a text are stripped behind what is not blank. -/
theorem strip_append_cons {front : List Char} {c : Char} (hfirst : ∀ d ∈ front.head?, isSpace d = false)
    (hc : isSpace c = false) (message : List Char) :
    strip (front ++ c :: message) = front ++ c :: stripEnd message := by
  have hdrop : (front ++ c :: message).dropWhile isSpace = front ++ c :: message := by
    cases front with
    | nil => exact List.dropWhile_cons_of_neg (by simp [hc])
    | cons d front => exact List.dropWhile_cons_of_neg (by simp [hfirst d rfl])
  have hreverse : (front ++ c :: message).reverse = message.reverse ++ (c :: front.reverse) := by simp
  unfold strip trim stripEnd List.rdropWhile
  rw [hdrop, hreverse, List.dropWhile_append]
  by_cases hall : (message.reverse.dropWhile isSpace).isEmpty = true
  · rw [if_pos hall, List.dropWhile_cons_of_neg (by simp [hc]), List.isEmpty_iff.mp hall]
    simp
  · rw [if_neg hall]
    simp

/-- The beginning of an answer. -/
theorem answer_eq (ok : Bool) (command message : List Char) :
    answer ok command message = (if ok then "ACK".toList else "NACK".toList) ++ ',' :: (command ++ ',' :: message) := by
  cases ok <;> rfl

/-- Stripping an answer strips the end of its message. -/
theorem strip_answer (ok : Bool) (command message : List Char) :
    strip (answer ok command message) = answer ok command (stripEnd message) := by
  have hshape (text : List Char) : answer ok command text =
      ((if ok then "ACK".toList else "NACK".toList) ++ ',' :: command) ++ ',' :: text := by
    rw [answer_eq, List.append_assoc, List.cons_append]
  rw [hshape, hshape]
  refine strip_append_cons ?_ (by decide) message
  cases ok <;> exact fun d hd => by cases hd; decide

/-- An answer is parsed as it is meant. -/
theorem parseCommandResponse_answer {ok : Bool} {command message : List Char} (hcommand : ',' ∉ command)
    (hstripped : stripEnd message = message) :
    parseCommandResponse (answer ok command message) = meant ok command message := by
  have htag : cut ',' (answer ok command message) =
      some (if ok then "ACK".toList else "NACK".toList, command ++ ',' :: message) := by
    rw [answer_eq]
    refine cut_append ?_ _
    cases ok <;> decide
  have hsome : answer ok command message ≠ [] := by
    rw [answer_eq]
    cases ok <;> simp
  unfold parseCommandResponse meant
  dsimp only
  rw [strip_answer, hstripped, if_neg hsome, htag]
  dsimp only
  rw [cut_append hcommand, Option.getD_some]
  cases ok <;> rfl

/-- Stripping the end again changes nothing. -/
theorem stripEnd_stripEnd (text : List Char) : stripEnd (stripEnd text) = stripEnd text :=
  List.rdropWhile_idempotent isSpace text

/-- A reply that was read is what its handler meant. -/
theorem responseOf_answer {ok : Bool} {command name message : List Char} (hname : ',' ∉ name) :
    responseOf command (strip (answer ok name message)) = meant ok name message := by
  have hsome : answer ok name (stripEnd message) ≠ [] := by
    rw [answer_eq]
    cases ok <;> simp
  unfold responseOf
  rw [strip_answer, if_neg hsome, parseCommandResponse_answer hname (stripEnd_stripEnd message)]
  unfold meant
  rw [stripEnd_stripEnd]

/-- A reply that comes whole is read as its handler meant it, however it comes. -/
theorem responseOf_recvReplyLine {ok : Bool} {command name message : List Char} (hname : ',' ∉ name)
    (hone : '\n' ∉ answer ok name message) (hshort : (Utf8.encode (answer ok name message)).length < maxReplyBytes)
    {reads : List (List UInt8)} (hreads : reads.flatten = replyBytes ok name message) :
    responseOf command (recvReplyLine reads) = meant ok name message := by
  rw [recvReplyLine_eq hone hshort hreads, responseOf_answer hname]

end Reply

/-- The handler gets the first line of a command that the dispatcher sends, which is the command as it was typed unless a
newline was typed into it; and a reply that is sent whole, at once or in pieces, is read as the handler meant it. The network cuts
both streams as it likes, and others may do what they want with the budget at each call. -/
theorem exchange_read (handler : List UInt8 → List UInt8) {command : List Char} (hfits : requestTooLong command = false)
    {ok : Bool} {name message : List Char} (hanswer : handler (heard command) = Utf8.encode (answer ok name message))
    (hname : ',' ∉ name) (hone : '\n' ∉ answer ok name message)
    (hshort : (Utf8.encode (answer ok name message)).length < maxReplyBytes)
    {requestReads : List (List UInt8)} (hrequest : IsSplit Framing.chunkBytes (payload command) requestReads) :
    ('\n' ∉ strip command → heard command = Utf8.encode (strip command)) ∧
      serve handler requestReads = some (replyBytes ok name message) ∧
      (∀ replyReads, IsSplit replyReadBytes (replyBytes ok name message) replyReads →
        responseOf command (recvReplyLine replyReads) = meant ok name message) ∧
      ∀ budget deadline legs replyReads,
        (sendPacedReply deadline legs true (replyBytes ok name message) (start budget)).1 = .sent →
        IsSplit replyReadBytes (sendPacedReply deadline legs true (replyBytes ok name message) (start budget)).2.wire replyReads →
        responseOf command (recvReplyLine replyReads) = meant ok name message := by
  refine ⟨heard_eq, ?_, ?_, ?_⟩
  · rw [serve, handleClient_payload hfits hrequest, Option.map_some, hanswer, replyBytes]
  · intro replyReads hsplit
    exact responseOf_recvReplyLine hname hone hshort hsplit.flatten_eq
  · intro budget deadline legs replyReads hsent hsplit
    have hstart : (start budget).ClosedBut none :=
      ⟨fun _ hmem => absurd hmem List.not_mem_nil, fun _ hmem => absurd hmem List.not_mem_nil⟩
    have hwire := (PacedReply.ended_sendPacedReply deadline legs true _ hstart).sent hsent
    have hempty : (start budget).wire = [] := rfl
    rw [hwire, hempty, List.nil_append] at hsplit
    exact responseOf_recvReplyLine hname hone hshort hsplit.flatten_eq

/-- A leg on which nothing goes wrong. -/
def smoothLeg : ReplyLeg :=
  ⟨[⟨[], 0, 0⟩], none, true, ⟨[], 1, 0⟩, ⟨[], 2, 0⟩, ⟨[], 2, 0⟩, ⟨[], 2, 0⟩, ⟨[], 2, 0⟩⟩

/-- A budget that nobody has used. -/
def freshBudget : LinkBudget := .new 1150 1000000000 (by decide)

/-- A ping that comes in two reads, and its answer, paced over a fresh budget. -/
theorem exchange_read_ping :
    serve (fun _ => Utf8.encode (answer true "PING".toList "pong".toList))
        [Utf8.encode "PI".toList, Utf8.encode "NG\n".toList] = some (replyBytes true "PING".toList "pong".toList) ∧
      responseOf " PING".toList (recvReplyLine [Utf8.encode "ACK,".toList, Utf8.encode "PING,pong\n".toList]) =
        meant true "PING".toList "pong".toList := by
  have hrequest : IsSplit Framing.chunkBytes (payload " PING".toList) [Utf8.encode "PI".toList, Utf8.encode "NG\n".toList] :=
    ⟨by decide, by decide, by decide⟩
  obtain ⟨-, hserve, -, hpaced⟩ := exchange_read (fun _ => Utf8.encode (answer true "PING".toList "pong".toList))
    (show requestTooLong " PING".toList = false by decide) rfl (by decide) (by decide) (by decide) hrequest
  exact ⟨hserve, hpaced freshBudget 1000 [smoothLeg] _ (by decide) ⟨by decide, by decide, by decide⟩⟩

end Coatheal.Link
