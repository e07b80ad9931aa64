import Coatheal.Library.Chunks

/-!
# How the onboard reads lines

The command server reads a connection until it has a line, and gives up on one
that brings 4 KiB without a newline; the telemetry client reads until it has a
line and keeps what came behind it for the next call. A read takes 512 bytes at
most. The client's lines do not depend on the cut. The server's line does where
the newline comes so late that a read may or may not bring it along with what
goes beyond the 4 KiB.
-/

namespace Coatheal.Framing

open Library.Chunks

/-- The size of a `chunk` of both readers. -/
def chunkBytes : ℕ := 512

/-- The newline. -/
def newline : UInt8 := 10

/-- Take a carriage return off the end of a line. -/
def popReturn (line : List UInt8) : List UInt8 := if line.getLast? = some 13 then line.dropLast else line

/-- The longest buffer without a newline that the command server reads on behind. -/
def kMaxLineBytes : ℕ := 4096

/-- The reads of `CommandServer::HandleClient`: the line for the handler, if there is one. -/
def handleClient (buffer : List UInt8) : List (List UInt8) → Option (List UInt8)
  | [] => none
  | chunk :: unread =>
    match breakAt newline (buffer ++ chunk) with
    | none => if kMaxLineBytes < (buffer ++ chunk).length then none else handleClient (buffer ++ chunk) unread
    | some (line, _) => some (popReturn line)

/-- What the telemetry client has read and not used, and what it has not read. -/
structure Connection where
  recvBuffer : List UInt8
  unread : List (List UInt8)
deriving DecidableEq

/-- The bytes that no line has taken yet. -/
def Connection.left (c : Connection) : List UInt8 := c.recvBuffer ++ c.unread.flatten

/-- `TelemetryClient::ReadLineLocked`: the next line, none when the connection ends before its newline. -/
def readLine (recvBuffer : List UInt8) (unread : List (List UInt8)) : Option (List UInt8) × Connection :=
  match breakAt newline recvBuffer with
  | some (line, rest) => (some (popReturn line), ⟨rest, unread⟩)
  | none =>
    match unread with
    | [] => (none, ⟨recvBuffer, []⟩)
    | chunk :: later => readLine (recvBuffer ++ chunk) later

/-- Some calls after each other. -/
def readLines : ℕ → Connection → List (Option (List UInt8)) × Connection
  | 0, c => ([], c)
  | calls + 1, c =>
    let (line, next) := readLine c.recvBuffer c.unread
    let (lines, last) := readLines calls next
    (line :: lines, last)

/-- What the calls give: the lines, the bytes left over, and, once a call finds no line, the buffer. -/
def observe (calls : ℕ) (c : Connection) : List (Option (List UInt8)) × List UInt8 × Option (List UInt8) :=
  let (lines, last) := readLines calls c
  (lines, last.left, if lines.all Option.isSome then none else some last.recvBuffer)

/-- A call takes the first line of the bytes that are there, and all bytes are in the buffer when there is none. -/
theorem readLine_eq (recvBuffer : List UInt8) (unread : List (List UInt8)) :
    (readLine recvBuffer unread).1 =
        (breakAt newline (recvBuffer ++ unread.flatten)).map (fun parts => popReturn parts.1) ∧
      (readLine recvBuffer unread).2.left =
        ((breakAt newline (recvBuffer ++ unread.flatten)).map Prod.snd).getD (recvBuffer ++ unread.flatten) ∧
      ((readLine recvBuffer unread).1 = none → (readLine recvBuffer unread).2.unread = []) := by
  induction unread generalizing recvBuffer with
  | nil =>
    rw [readLine, List.flatten_nil, List.append_nil]
    cases breakAt newline recvBuffer with
    | none => simp [Connection.left]
    | some parts => simp [Connection.left]
  | cons chunk later ih =>
    rw [readLine, List.flatten_cons, ← List.append_assoc]
    by_cases hmem : newline ∈ recvBuffer
    · obtain ⟨line, rest, rfl, hline⟩ := List.eq_append_cons_of_mem hmem
      have hall : line ++ newline :: rest ++ chunk ++ later.flatten =
          line ++ newline :: (rest ++ chunk ++ later.flatten) := by simp
      rw [breakAt_append_cons hline, hall, breakAt_append_cons hline]
      simp [Connection.left]
    · rw [breakAt_of_notMem hmem]
      exact ih (recvBuffer ++ chunk)

/-- Two connections with the same bytes left over give the same lines, and keep the same bytes left over. -/
theorem readLines_congr (calls : ℕ) {c c' : Connection} (h : c.left = c'.left) :
    (readLines calls c).1 = (readLines calls c').1 ∧ (readLines calls c).2.left = (readLines calls c').2.left := by
  induction calls generalizing c c' with
  | zero => exact ⟨rfl, h⟩
  | succ calls ih =>
    obtain ⟨hline, hleft, _⟩ := readLine_eq c.recvBuffer c.unread
    obtain ⟨hline', hleft', _⟩ := readLine_eq c'.recvBuffer c'.unread
    change c.recvBuffer ++ c.unread.flatten = c'.recvBuffer ++ c'.unread.flatten at h
    rw [h] at hline hleft
    obtain ⟨hlines, hlast⟩ := ih (hleft.trans hleft'.symm)
    exact ⟨List.cons_eq_cons.mpr ⟨hline.trans hline'.symm, hlines⟩, hlast⟩

/-- A connection that was read to its end stays so. -/
theorem readLines_unread {c : Connection} (h : c.unread = []) (calls : ℕ) : (readLines calls c).2.unread = [] := by
  induction calls generalizing c with
  | zero => exact h
  | succ calls ih =>
    refine ih (c := (readLine c.recvBuffer c.unread).2) ?_
    rw [h, readLine]
    cases breakAt newline c.recvBuffer with
    | none => rfl
    | some parts => rfl

/-- Once a call finds no line, the connection was read to its end. -/
theorem readLines_drained {calls : ℕ} {c : Connection} (h : (readLines calls c).1.all Option.isSome = false) :
    (readLines calls c).2.unread = [] := by
  induction calls generalizing c with
  | zero => cases h
  | succ calls ih =>
    obtain ⟨_, _, hend⟩ := readLine_eq c.recvBuffer c.unread
    change ((readLine c.recvBuffer c.unread).1.isSome &&
      (readLines calls (readLine c.recvBuffer c.unread).2).1.all Option.isSome) = false at h
    rcases Bool.and_eq_false_iff.mp h with hnone | hlater
    · exact readLines_unread (hend (Option.not_isSome_iff_eq_none.mp (by simp [hnone]))) calls
    · exact ih hlater

/-- The lines of the telemetry client and the bytes left over do not depend on the cut. -/
theorem readLines_independent (limit calls : ℕ) (recvBuffer stream : List UInt8) :
    Independent limit stream fun chunks => observe calls ⟨recvBuffer, chunks⟩ := by
  intro chunks chunks' hsplit hsplit'
  have hsame : Connection.left ⟨recvBuffer, chunks⟩ = Connection.left ⟨recvBuffer, chunks'⟩ := by
    rw [Connection.left, Connection.left, hsplit.flatten_eq, hsplit'.flatten_eq]
  obtain ⟨hlines, hleft⟩ := readLines_congr calls hsame
  have hbuffer {c : Connection} (hend : c.unread = []) : c.recvBuffer = c.left := by
    rw [Connection.left, hend, List.flatten_nil, List.append_nil]
  change (_, _, _) = (_, _, _)
  rw [hlines, hleft]
  congr 2
  split
  case isTrue => rfl
  case isFalse hnone =>
    have hdrained' := readLines_drained (Bool.eq_false_iff.mpr hnone)
    have hdrained := readLines_drained (Bool.eq_false_iff.mpr (hlines ▸ hnone))
    rw [hbuffer hdrained, hbuffer hdrained', hleft]

/-- A line that is short enough reaches the handler. -/
theorem handleClient_of_short {buffer stream line rest : List UInt8} {chunks : List (List UInt8)}
    (hflatten : chunks.flatten = stream) (hbuffer : newline ∉ buffer) (hline : newline ∉ line)
    (hall : buffer ++ stream = line ++ newline :: rest) (hshort : line.length ≤ kMaxLineBytes) :
    handleClient buffer chunks = some (popReturn line) := by
  induction chunks generalizing buffer stream with
  | nil =>
    rw [← hflatten, List.flatten_nil, List.append_nil] at hall
    exact absurd (hall ▸ List.mem_append_right line List.mem_cons_self) hbuffer
  | cons chunk unread ih =>
    rw [← hflatten, List.flatten_cons, ← List.append_assoc] at hall
    rw [handleClient]
    by_cases hmem : newline ∈ buffer ++ chunk
    · obtain ⟨line', rest', hfirst, hline'⟩ := List.eq_append_cons_of_mem hmem
      have hsame := congrArg (breakAt newline) hall
      rw [hfirst, List.append_assoc, List.cons_append, breakAt_append_cons hline', breakAt_append_cons hline] at hsame
      rw [hfirst, breakAt_append_cons hline']
      cases hsame
      rfl
    · have hlength : (buffer ++ chunk).length ≤ kMaxLineBytes := by
        refine le_trans ?_ hshort
        rcases List.append_eq_append_iff.mp hall with ⟨more, rfl, _⟩ | ⟨more, hfront, hback⟩
        · simp
        · cases more with
          | nil => simp [hfront]
          | cons b more =>
            cases hback
            exact absurd (hfront ▸ List.mem_append_right line List.mem_cons_self) hmem
      rw [breakAt_of_notMem hmem]
      dsimp only
      rw [if_neg (not_lt.mpr hlength)]
      exact ih rfl hmem hall

/-- No line reaches the handler of a stream in which no newline comes in time. -/
theorem handleClient_of_long {buffer stream : List UInt8} {chunks : List (List UInt8)}
    (hsplit : IsSplit chunkBytes stream chunks) (hbuffer : buffer.length ≤ kMaxLineBytes)
    (hnone : newline ∉ (buffer ++ stream).take (kMaxLineBytes + chunkBytes)) : handleClient buffer chunks = none := by
  induction chunks generalizing buffer stream with
  | nil => rfl
  | cons chunk unread ih =>
    have hchunk : chunk.length ≤ chunkBytes := hsplit.length_le chunk List.mem_cons_self
    have hall : buffer ++ stream = (buffer ++ chunk) ++ unread.flatten := by
      rw [← hsplit.flatten_eq, List.flatten_cons, List.append_assoc]
    have hmem : newline ∉ buffer ++ chunk := by
      intro hin
      refine hnone ?_
      rw [hall, List.take_append, List.take_of_length_le (by rw [List.length_append]; omega)]
      exact List.mem_append_left _ hin
    rw [handleClient, breakAt_of_notMem hmem]
    dsimp only
    split
    case isTrue => rfl
    case isFalse hshort => exact ih hsplit.tail (not_lt.mp hshort) (hall ▸ hnone)

/-- The server reads on behind chunks that bring no newline and stay within the limit. -/
theorem handleClient_append {buffer : List UInt8} {chunks : List (List UInt8)} (later : List (List UInt8))
    (hnone : newline ∉ buffer ++ chunks.flatten) (hlength : (buffer ++ chunks.flatten).length ≤ kMaxLineBytes) :
    handleClient buffer (chunks ++ later) = handleClient (buffer ++ chunks.flatten) later := by
  induction chunks generalizing buffer with
  | nil => simp
  | cons chunk unread ih =>
    rw [List.flatten_cons, ← List.append_assoc] at hnone hlength ⊢
    have hmem : newline ∉ buffer ++ chunk := fun hin => hnone (List.mem_append_left _ hin)
    have hshort : ¬ kMaxLineBytes < (buffer ++ chunk).length := by
      rw [List.length_append] at hlength
      omega
    rw [List.cons_append, handleClient, breakAt_of_notMem hmem]
    dsimp only
    rw [if_neg hshort]
    exact ih hnone hlength

/-- A line that is longer than the buffer may get, but not by a whole read, can be cut both ways. -/
theorem not_independent_handleClient {line rest : List UInt8} (hline : newline ∉ line)
    (hlow : kMaxLineBytes < line.length) (hhigh : line.length < kMaxLineBytes + chunkBytes) :
    ¬ Independent chunkBytes (line ++ newline :: rest) (handleClient []) := by
  obtain ⟨front, back, rfl, hfront⟩ : ∃ front back, line = front ++ back ∧ front.length = kMaxLineBytes :=
    ⟨line.take kMaxLineBytes, line.drop kMaxLineBytes, (List.take_append_drop _ _).symm,
      List.length_take_of_le hlow.le⟩
  cases back with
  | nil => exact absurd hlow (by simp [hfront])
  | cons b back =>
    have hback : (b :: back).length < chunkBytes := by
      rw [List.length_append, hfront] at hhigh
      omega
    have hsingles (part : List UInt8) : IsSplit chunkBytes part (singles part) := isSplit_singles (by decide) part
    have hpass : newline ∉ [] ++ (singles front).flatten := by
      rw [List.nil_append, flatten_singles]
      exact fun hin => hline (List.mem_append_left _ hin)
    have hlimit : ([] ++ (singles front).flatten).length ≤ kMaxLineBytes := by
      rw [List.nil_append, flatten_singles, hfront]
    have hslow : handleClient [] (singles front ++ ([b] :: singles (back ++ newline :: rest))) = none := by
      have hb : newline ∉ front ++ [b] := fun hin => hline (by
        rcases List.mem_append.mp hin with hin | hin
        · exact List.mem_append_left _ hin
        · exact List.mem_append_right _ (List.mem_cons.mpr (Or.inl (List.mem_singleton.mp hin))))
      rw [handleClient_append _ hpass hlimit, List.nil_append, flatten_singles, handleClient, breakAt_of_notMem hb]
      exact if_pos (by rw [List.length_append, hfront, List.length_singleton]; exact Nat.lt_succ_self _)
    have hfast : handleClient [] (singles front ++ ((b :: back ++ [newline]) :: singles rest)) =
        some (popReturn (front ++ b :: back)) := by
      rw [handleClient_append _ hpass hlimit, List.nil_append, flatten_singles, handleClient, ← List.append_assoc,
        breakAt_append_cons hline]
    intro hindependent
    have hsplitSlow := (hsingles front).append (hsingles (b :: back ++ newline :: rest))
    have hsplitFast := (hsingles front).append ((isSplit_one (by simp : b :: back ++ [newline] ≠ [])
      (by rw [List.length_append]; exact hback)).append (hsingles rest))
    have hsame := hindependent _ _ (by simpa using hsplitSlow) (by simpa using hsplitFast)
    exact absurd ((hslow.symm.trans hsame).trans hfast) (by simp)

/-- The first newline of a stream comes within the buffer's limit, or a whole read behind it, if it comes. -/
def InTime (stream : List UInt8) : Prop :=
  ∀ line rest, stream = line ++ newline :: rest → newline ∉ line →
    line.length ≤ kMaxLineBytes ∨ kMaxLineBytes + chunkBytes ≤ line.length

/-- The line for the handler does not depend on the cut exactly when the first newline does not come in the read
that may or may not go beyond the limit. -/
theorem handleClient_independent_iff (stream : List UInt8) :
    Independent chunkBytes stream (handleClient []) ↔ InTime stream := by
  constructor
  · intro h line rest hstream hline
    by_contra hbetween
    obtain ⟨hlow, hhigh⟩ := not_or.mp hbetween
    exact not_independent_handleClient hline (not_le.mp hlow) (not_le.mp hhigh) (hstream ▸ h)
  · intro h
    have hnil : ([] : List UInt8).length ≤ kMaxLineBytes := Nat.zero_le _
    by_cases hmem : newline ∈ stream
    · obtain ⟨line, rest, rfl, hline⟩ := List.eq_append_cons_of_mem hmem
      rcases h line rest rfl hline with hshort | hlong
      · exact independent_of_eq fun chunks hsplit =>
          handleClient_of_short hsplit.flatten_eq List.not_mem_nil hline (List.nil_append _) hshort
      · refine independent_of_eq fun chunks hsplit => handleClient_of_long hsplit hnil ?_
        rw [List.nil_append, List.take_append_of_le_length hlong]
        exact fun hin => hline (List.mem_of_mem_take hin)
    · refine independent_of_eq fun chunks hsplit => handleClient_of_long hsplit hnil ?_
      exact fun hin => hmem (List.mem_of_mem_take hin)

end Coatheal.Framing
