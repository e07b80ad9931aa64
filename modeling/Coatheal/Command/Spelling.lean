import Coatheal.Command.Parser
import Coatheal.Library.Words
import Mathlib.Data.Nat.Find
import Mathlib.Tactic.IntervalCases

/-!
# Spellings and motors

The words of a name may be joined by underscores or stand apart, in capitals or
not, with commas or white space between them: the same command is read, as the
longest name wins and no name has more than four words. A motor that a command
may have in front of its values is recognised when it is one of the motors. Three
commands may have a hold time behind their value, so that two arguments can be
read as a motor and a value or as a value and a hold time; they are the second
where the first argument is none of the motors.
-/

namespace Coatheal.CommandLine

open Coatheal.Library.Text

/-- The characters between the words of a line. -/
def isSeparator (c : Char) : Bool := c = ',' || isSpace c

/-- The tokens of a line are its words. -/
theorem tokens_eq_words (line : List Char) : tokens line = words isSeparator line := by
  have hcomma : isSpace ' ' = true := by decide
  have hsame : ∀ c, isSpace (if c = ',' then ' ' else c) = isSeparator c := by
    intro c
    unfold isSeparator
    split
    case isTrue hc => simp [hc, hcomma]
    case isFalse hc => simp [hc]
  have hkeep : ∀ c, isSeparator c = false → (if c = ',' then ' ' else c) = c := by
    intro c hc
    refine if_neg fun heq => ?_
    simp [isSeparator, heq] at hc
  calc tokens line = words isSpace ((trim isSpace line).map fun c => if c = ',' then ' ' else c) := rfl
    _ = words isSeparator (trim isSpace line) := words_map hsame hkeep _
    _ = words isSeparator line := words_trim (fun c hc => by simp [isSeparator, hc]) line

/-- What a line spells are its tokens. -/
theorem tokens_of_spells {line : List Char} {spelled : List (List Char)} (h : Spells isSeparator line spelled) :
    tokens line = spelled := (tokens_eq_words line).trans h.words_eq

/-- A line that spells a name of a command and then some arguments. -/
def Gives (line : List Char) (type : CommandType) (args : List (List Char)) : Prop :=
  ∃ name, Spells isSeparator line (name ++ args) ∧ joined name = type.toText.toList

/-- Two lines with the same arguments behind two spellings of one name. -/
def Alike (line₁ line₂ : List Char) : Prop :=
  ∃ name₁ name₂ args, Spells isSeparator line₁ (name₁ ++ args) ∧ Spells isSeparator line₂ (name₂ ++ args) ∧
    joined name₁ = joined name₂ ∧ (lookup (joined name₁)).isSome = true

/-- The words of a name behind the first each follow an underscore. -/
theorem joined_cons (first : List Char) (rest : List (List Char)) :
    joined (first :: rest) = upper first ++ rest.flatMap fun word => '_' :: upper word := by
  induction rest generalizing first with
  | nil => simp [joined, List.intercalate]
  | cons next rest ih =>
    have hnext := ih next
    have hjoin : joined (first :: next :: rest) = upper first ++ '_' :: joined (next :: rest) := by
      simp [joined, List.intercalate]
    rw [hjoin, hnext, List.flatMap_cons]
    rfl

/-- More words behind a name each follow an underscore. -/
theorem joined_append {name : List (List Char)} (h : name ≠ []) (more : List (List Char)) :
    joined (name ++ more) = joined name ++ more.flatMap fun word => '_' :: upper word := by
  cases name with
  | nil => exact absurd rfl h
  | cons first rest => rw [List.cons_append, joined_cons, joined_cons, List.flatMap_append, List.append_assoc]

/-- A name of some words has one underscore less than words, or more. -/
theorem length_le_count (name : List (List Char)) : name.length ≤ (joined name).count '_' + 1 := by
  cases name with
  | nil => exact Nat.zero_le _
  | cons first rest =>
    have hrest : rest.length ≤ (rest.flatMap fun word => '_' :: upper word).count '_' := by
      induction rest with
      | nil => exact Nat.zero_le _
      | cons next rest ih =>
        rw [List.flatMap_cons, List.count_append, List.count_cons_self, List.length_cons]
        omega
    rw [joined_cons, List.count_append, List.length_cons]
    omega

/-- No name of a command is empty, has a digit or more than three underscores. -/
theorem commandMap_names : ∀ entry ∈ commandMap, entry.1.toList ≠ [] ∧
    entry.1.toList.all (fun c => !c.isDigit) = true ∧ entry.1.toList.count '_' ≤ 3 := by
  decide +kernel

/-- A name that is looked up successfully is in the map. -/
theorem mem_of_lookup {name : List Char} {type : CommandType} (h : lookup name = some type) :
    ∃ entry ∈ commandMap, entry.1.toList = name := by
  obtain ⟨entry, hfind, -⟩ := Option.map_eq_some_iff.mp h
  have hname := List.find?_some hfind
  exact ⟨entry, List.mem_of_find?_eq_some hfind, of_decide_eq_true hname⟩

/-- The words of a name are at most four. -/
theorem length_of_lookup {name : List (List Char)} {type : CommandType} (h : lookup (joined name) = some type) :
    name.length ≤ 4 := by
  obtain ⟨entry, hentry, hname⟩ := mem_of_lookup h
  have hcount := (commandMap_names entry hentry).2.2
  rw [hname] at hcount
  exact (length_le_count name).trans (Nat.succ_le_succ hcount)

/-- A name has at least one word. -/
theorem ne_nil_of_lookup {name : List (List Char)} {type : CommandType} (h : lookup (joined name) = some type) :
    name ≠ [] := by
  rintro rfl
  obtain ⟨entry, hentry, hname⟩ := mem_of_lookup h
  exact (commandMap_names entry hentry).1 hname

/-- A name has no digit. -/
theorem no_digit_of_lookup {name : List Char} {type : CommandType} (h : lookup name = some type) {c : Char}
    (hc : c ∈ name) : c.isDigit = false := by
  obtain ⟨entry, hentry, rfl⟩ := mem_of_lookup h
  have hall := (commandMap_names entry hentry).2.1
  simpa using List.all_eq_true.mp hall c hc

/-- A name is looked up as a string. -/
theorem lookup_toList (name : String) : lookup name.toList = (commandMap.find? fun entry => entry.1 = name).map (·.2) := by
  simp only [lookup, String.toList_inj]

/-- The name of a command is looked up as that command. -/
theorem lookup_toText (type : CommandType) : lookup type.toText.toList = some type := by
  have hall : ∀ type ∈ CommandType.all,
      (commandMap.find? fun entry => entry.1 = type.toText).map (·.2) = some type := by decide +kernel
  have hmem : type ∈ CommandType.all := by cases type <;> decide
  rw [lookup_toList]
  exact hall type hmem

/-- A beginning that names a command, and no longer one that does, is the command of the words. -/
theorem findCommand_eq {spelled : List (List Char)} {type : CommandType} {count : ℕ} (hle : count ≤ spelled.length)
    (hlookup : lookup (joined (spelled.take count)) = some type)
    (hlonger : ∀ more, count < more → more ≤ spelled.length → lookup (joined (spelled.take more)) = none) :
    findCommand spelled = some (type, count) := by
  have hlength : (spelled.take count).length = count := by
    rw [List.length_take]
    exact min_eq_left hle
  have hfour : count ≤ 4 := by
    have hmost := length_of_lookup hlookup
    rwa [hlength] at hmost
  have hpos : 0 < count := by
    refine Nat.pos_of_ne_zero fun hzero => ne_nil_of_lookup hlookup ?_
    rw [hzero, List.take_zero]
  have hfound : (if count ≤ spelled.length then
      (lookup (joined (spelled.take count))).map fun type => (type, count) else none) = some (type, count) := by
    rw [if_pos hle, hlookup]
    rfl
  have hnone : ∀ more, count < more → (if more ≤ spelled.length then
      (lookup (joined (spelled.take more))).map fun type => (type, more) else none) = none := by
    intro more hmore
    split
    case isTrue hin =>
      rw [hlonger more hmore hin]
      rfl
    case isFalse => rfl
  unfold findCommand
  interval_cases count
  · rw [List.findSome?_cons, hnone 4 (by decide), List.findSome?_cons, hnone 3 (by decide), List.findSome?_cons,
      hnone 2 (by decide), List.findSome?_cons, hfound]
  · rw [List.findSome?_cons, hnone 4 (by decide), List.findSome?_cons, hnone 3 (by decide), List.findSome?_cons,
      hfound]
  · rw [List.findSome?_cons, hnone 4 (by decide), List.findSome?_cons, hfound]
  · rw [List.findSome?_cons, hfound]

/-- A command with what was given to it: its motor taken away, its arguments counted and normalised. -/
def complete (motorCount : ℕ) (type : CommandType) (given : List (List Char)) : Except String Command :=
  let (motor, args) := type.arity.extract motorCount given
  if type.arity.admits args.length then .ok ⟨type, normalizeArgs type args, motor⟩
  else .error ("invalid argument count for " ++ type.toText)

/-- A line whose words begin with a command is that command with the rest. -/
theorem parseLine_eq (motorCount : ℕ) {line : List Char} {spelled : List (List Char)} {type : CommandType} {count : ℕ}
    (h : Spells isSeparator line spelled) (hfind : findCommand spelled = some (type, count)) :
    parseLine motorCount line = complete motorCount type (spelled.drop count) := by
  unfold parseLine
  rw [tokens_of_spells h]
  cases spelled with
  | nil => cases hfind
  | cons first rest =>
    dsimp only
    rw [hfind]
    rfl

/-- A name and as many arguments as make the longest name with it are the command of the line. -/
theorem parseLine_longest (motorCount : ℕ) {line : List Char} {name args : List (List Char)} {type : CommandType}
    {count : ℕ} (h : Spells isSeparator line (name ++ args)) (hle : count ≤ args.length)
    (hlookup : lookup (joined (name ++ args.take count)) = some type)
    (hlonger : ∀ more, count < more → more ≤ args.length → lookup (joined (name ++ args.take more)) = none) :
    parseLine motorCount line = complete motorCount type (args.drop count) := by
  have hfind : findCommand (name ++ args) = some (type, name.length + count) := by
    refine findCommand_eq ?_ ?_ fun more hmore hin => ?_
    · rw [List.length_append]
      exact Nat.add_le_add_left hle _
    · rw [List.take_length_add_append]
      exact hlookup
    · obtain ⟨extra, rfl⟩ := Nat.exists_eq_add_of_le ((Nat.le_add_right _ _).trans hmore.le)
      rw [List.length_append] at hin
      rw [List.take_length_add_append]
      exact hlonger extra (Nat.lt_of_add_lt_add_left hmore) (Nat.le_of_add_le_add_left hin)
  rw [parseLine_eq motorCount h hfind, List.drop_length_add_append]

/-- With any arguments a name of a command is the beginning of a longest one. -/
theorem exists_longest {name : List (List Char)} (args : List (List Char))
    (h : (lookup (joined name)).isSome = true) : ∃ count ≤ args.length, ∃ type,
      lookup (joined (name ++ args.take count)) = some type ∧
        ∀ more, count < more → more ≤ args.length → lookup (joined (name ++ args.take more)) = none := by
  let names : ℕ → Prop := fun count => (lookup (joined (name ++ args.take count))).isSome = true
  have hzero : names 0 := by
    change (lookup (joined (name ++ args.take 0))).isSome = true
    rwa [List.take_zero, List.append_nil]
  have hlongest : names (Nat.findGreatest names args.length) := Nat.findGreatest_spec (Nat.zero_le _) hzero
  obtain ⟨type, htype⟩ := Option.isSome_iff_exists.mp hlongest
  refine ⟨_, Nat.findGreatest_le _, type, htype, fun more hmore hin => ?_⟩
  have hnot : ¬ names more := Nat.findGreatest_is_greatest hmore hin
  exact Option.not_isSome_iff_eq_none.mp hnot

/-- Two spellings of a name with the same arguments are the same command. -/
theorem Alike.parseLine_eq (motorCount : ℕ) {line₁ line₂ : List Char} (h : Alike line₁ line₂) :
    parseLine motorCount line₁ = parseLine motorCount line₂ := by
  obtain ⟨name₁, name₂, args, hfirst, hsecond, hname, hsome⟩ := h
  obtain ⟨type, htype⟩ := Option.isSome_iff_exists.mp hsome
  have hother : lookup (joined name₂) = some type := by rwa [← hname]
  have hsame : ∀ more, joined (name₁ ++ more) = joined (name₂ ++ more) := by
    intro more
    rw [joined_append (ne_nil_of_lookup htype), joined_append (ne_nil_of_lookup hother), hname]
  obtain ⟨count, hle, longest, hlookup, hlonger⟩ := exists_longest args hsome
  rw [parseLine_longest motorCount hfirst hle hlookup hlonger]
  refine (parseLine_longest motorCount hsecond hle ?_ fun more hmore hin => ?_).symm
  · rw [← hsame]
    exact hlookup
  · rw [← hsame]
    exact hlonger more hmore hin

/-- A digit stays a digit in capitals. -/
theorem toUpper_of_isDigit {c : Char} (h : c.isDigit = true) : c.toUpper = c := by
  have hnine : c.val ≤ 57 := (Bool.and_eq_true_iff.mp h).2 |> of_decide_eq_true
  refine dif_neg fun hlower => ?_
  have hlow : (97 : UInt32) ≤ c.val := hlower.1
  exact absurd (UInt32.le_trans hlow hnine) (by decide)

/-- A line with a command and a first argument that has a digit is that command with its arguments. -/
theorem Gives.parseLine_eq (motorCount : ℕ) {line first : List Char} {type : CommandType} {rest : List (List Char)}
    (h : Gives line type (first :: rest)) {digit : Char} (hdigit : digit ∈ first) (hisDigit : digit.isDigit = true) :
    parseLine motorCount line = complete motorCount type (first :: rest) := by
  obtain ⟨name, hspells, hname⟩ := h
  have htype : lookup (joined name) = some type := by
    rw [hname]
    exact lookup_toText type
  refine parseLine_longest motorCount hspells (Nat.zero_le _) ?_ fun more hmore hin => ?_
  · rwa [List.take_zero, List.append_nil]
  · cases hlookup : lookup (joined (name ++ (first :: rest).take more)) with
    | none => rfl
    | some other =>
      have hin : digit ∈ joined (name ++ (first :: rest).take more) := by
        obtain ⟨extra, rfl⟩ := Nat.exists_eq_add_of_lt hmore
        rw [joined_append (ne_nil_of_lookup htype), Nat.zero_add, List.take_succ_cons, List.flatMap_cons]
        refine List.mem_append_right _ (List.mem_append_left _ (List.mem_cons_of_mem _ ?_))
        exact List.mem_map.mpr ⟨digit, hdigit, toUpper_of_isDigit hisDigit⟩
      exact absurd hisDigit (by rw [no_digit_of_lookup hlookup hin]; decide)

/-- A number has a digit. -/
theorem exists_digit {token : List Char} {value : ℕ} (h : wholeNat token = some value) :
    ∃ digit ∈ token, digit.isDigit = true := by
  have hall := digits_of_wholeNat h
  cases token with
  | nil => cases h
  | cons digit rest => exact ⟨digit, List.mem_cons_self, List.all_eq_true.mp hall digit List.mem_cons_self⟩

/-- A number could be a motor when it has at most nine digits and is one of the motors. -/
theorem isPlausibleMotorId_iff {motorCount value : ℕ} {token : List Char} (h : wholeNat token = some value) :
    isPlausibleMotorId motorCount token = true ↔ token.length ≤ 9 ∧ value < motorCount := by
  rw [isPlausibleMotorId, h, Option.any_some, Bool.and_eq_true, decide_eq_true_iff, decide_eq_true_iff]

/-- The arguments of a command that may have a motor are kept as they are. -/
theorem normalizeArgs_eq {type : CommandType} {low high : ℕ} (h : type.arity = .optionalMotor low high)
    (args : List (List Char)) : normalizeArgs type args = args := by
  cases type <;> first | rfl | cases h

/-- A command completed with one of the motors and its values. -/
theorem complete_indexed {motorCount low high value : ℕ} {type : CommandType} {id : List Char}
    {values : List (List Char)} (harity : type.arity = .optionalMotor low high) (hid : wholeNat id = some value)
    (hthere : value < motorCount) (hdigits : id.length ≤ 9) (hlow : low ≤ values.length)
    (hhigh : values.length ≤ high) : complete motorCount type (id :: values) = .ok ⟨type, values, some id⟩ := by
  have hplausible := (isPlausibleMotorId_iff hid).mpr ⟨hdigits, hthere⟩
  have hextract : type.arity.extract motorCount (id :: values) = (some id, values) := by
    rw [harity]
    exact if_pos ⟨Nat.succ_le_succ hlow, Nat.succ_le_succ hhigh, hplausible⟩
  have hadmits : type.arity.admits values.length = true := by
    rw [harity, Arity.admits, Bool.and_eq_true]
    exact ⟨decide_eq_true hlow, decide_eq_true hhigh⟩
  unfold complete
  rw [hextract]
  dsimp only
  rw [if_pos hadmits, normalizeArgs_eq harity]

/-- A command completed with a first argument that could be none of the motors. -/
theorem complete_legacy {motorCount low high : ℕ} {type : CommandType} {first : List Char}
    {values : List (List Char)} (harity : type.arity = .optionalMotor low high)
    (hmissing : isPlausibleMotorId motorCount first = false) (hlow : low ≤ values.length) :
    complete motorCount type (first :: values) =
      if values.length < high then .ok ⟨type, first :: values, none⟩
      else .error ("invalid argument count for " ++ type.toText) := by
  have hextract : type.arity.extract motorCount (first :: values) = (none, first :: values) := by
    rw [harity]
    refine if_neg fun hall => ?_
    rw [hmissing] at hall
    exact Bool.false_ne_true hall.2.2
  have hadmits : type.arity.admits (first :: values).length = true ↔ values.length < high := by
    rw [harity, Arity.admits, Bool.and_eq_true, decide_eq_true_iff, decide_eq_true_iff, List.length_cons]
    exact ⟨fun h => h.2, fun h => ⟨hlow.trans (Nat.le_succ _), h⟩⟩
  unfold complete
  rw [hextract]
  dsimp only
  rw [normalizeArgs_eq harity]
  by_cases hcount : values.length < high
  · rw [if_pos (hadmits.mpr hcount), if_pos hcount]
  · rw [if_neg (mt hadmits.mp hcount), if_neg hcount]

/-- The law of addressing: a line with one of the motors in front of its values is that motor's command with
those values, two spellings of a line are the same command, and a line with a motor that does not exist is no
command for the first motor. -/
structure Addressing (motorCount : ℕ) : Prop where
  indexed : ∀ line type low high id values value, type.arity = .optionalMotor low high →
    Gives line type (id :: values) → wholeNat id = some value → value < motorCount →
    low ≤ values.length → values.length ≤ high →
    ∃ command, parseLine motorCount line = .ok command ∧ command.type = type ∧ command.args = values ∧
      command.motorId = value
  alike : ∀ line₁ line₂, Alike line₁ line₂ → parseLine motorCount line₁ = parseLine motorCount line₂
  missing : ∀ line type low high id values value command, type.arity = .optionalMotor low high →
    Gives line type (id :: values) → wholeNat id = some value → motorCount ≤ value → low ≤ values.length →
    parseLine motorCount line = .ok command → command.motorId ≠ 0

/-- The law of addressing as the parser keeps it: a motor has at most nine digits, and a motor that does not
exist is refused unless the line has the form with a value and a hold time, of which only three commands
have one. -/
structure AddressingByForm (motorCount : ℕ) : Prop where
  indexed : ∀ line type low high id values value, type.arity = .optionalMotor low high →
    Gives line type (id :: values) → wholeNat id = some value → value < motorCount → id.length ≤ 9 →
    low ≤ values.length → values.length ≤ high →
    ∃ command, parseLine motorCount line = .ok command ∧ command.type = type ∧ command.args = values ∧
      command.motorId = value
  alike : ∀ line₁ line₂, Alike line₁ line₂ → parseLine motorCount line₁ = parseLine motorCount line₂
  missing : ∀ line type low high id values value, type.arity = .optionalMotor low high →
    Gives line type (id :: values) → wholeNat id = some value → motorCount ≤ value → low ≤ values.length →
    parseLine motorCount line =
      if type ∈ [.stepperMoveTo, .stepperMoveToMm, .stepperBend] ∧ values.length = 1 then
        .ok ⟨type, id :: values, none⟩
      else .error ("invalid argument count for " ++ type.toText)

/-- The commands with room for one more value are the three with a hold time. -/
theorem lt_iff_hold {type : CommandType} {low high : ℕ} (h : type.arity = .optionalMotor low high) {count : ℕ}
    (hlow : low ≤ count) : count < high ↔ type ∈ [.stepperMoveTo, .stepperMoveToMm, .stepperBend] ∧ count = 1 := by
  have hall : ∀ type ∈ CommandType.all, ∀ low high, type.arity = .optionalMotor low high →
      (low = high ∧ type ∉ [.stepperMoveTo, .stepperMoveToMm, .stepperBend]) ∨
        (low = 1 ∧ high = 2 ∧ type ∈ [.stepperMoveTo, .stepperMoveToMm, .stepperBend]) := by
    intro type _ low high harity
    cases type <;> first
      | cases harity
        exact Or.inl ⟨rfl, by decide⟩
      | cases harity
        exact Or.inr ⟨rfl, rfl, by decide⟩
      | cases harity
  have hmem : type ∈ CommandType.all := by cases type <;> decide
  rcases hall type hmem low high h with ⟨hsame, hnot⟩ | ⟨hone, htwo, hin⟩
  · exact ⟨fun hlt => absurd hlt (by omega), fun hboth => absurd hboth.1 hnot⟩
  · exact ⟨fun hlt => ⟨hin, by omega⟩, fun hboth => by omega⟩

/-- For every number of motors the parser keeps the law of addressing by the form of the line. -/
theorem addressingByForm (motorCount : ℕ) : AddressingByForm motorCount where
  indexed line type low high id values value harity hgives hid hthere hdigits hlow hhigh := by
    obtain ⟨digit, hdigit, hisDigit⟩ := exists_digit hid
    refine ⟨⟨type, values, some id⟩, ?_, rfl, rfl, ?_⟩
    · rw [hgives.parseLine_eq motorCount hdigit hisDigit,
        complete_indexed harity hid hthere hdigits hlow hhigh]
    · simp [Command.motorId, hid]
  alike line₁ line₂ h := h.parseLine_eq motorCount
  missing line type low high id values value harity hgives hid hmissing hlow := by
    obtain ⟨digit, hdigit, hisDigit⟩ := exists_digit hid
    have hnot : isPlausibleMotorId motorCount id = false := by
      refine Bool.eq_false_iff.mpr fun hplausible => ?_
      exact absurd ((isPlausibleMotorId_iff hid).mp hplausible).2 (not_lt.mpr hmissing)
    rw [hgives.parseLine_eq motorCount hdigit hisDigit, complete_legacy harity hnot hlow]
    simp only [lt_iff_hold harity hlow]

/-- With two motors a move of the third one to a position is read as a move of the first one, to position 2 and
with the position as its hold time, and a motor written with ten digits is not read as one. -/
theorem not_addressing_two : ¬ Addressing 2 ∧
    (∃ command, parseLine 2 "STEPPER_MOVETO 2 800".toList = .ok command ∧ command.motorId = 0 ∧
      command.args = ["2".toList, "800".toList]) ∧
    (parseLine 2 "STEPPER_HOME 0000000001".toList).toOption.isSome = false := by
  have hvalues : Spells isSeparator "2 800".toList ["2".toList, "800".toList] :=
    @Spells.followed _ "2".toList "800".toList ' ' _ (by decide) rfl rfl (.single (by decide) rfl)
  have hspells : Spells isSeparator "STEPPER_MOVETO 2 800".toList
      ("STEPPER_MOVETO".toList :: ["2".toList, "800".toList]) :=
    @Spells.followed _ "STEPPER_MOVETO".toList "2 800".toList ' ' _ (by decide) rfl rfl hvalues
  have hgives : Gives "STEPPER_MOVETO 2 800".toList .stepperMoveTo ["2".toList, "800".toList] :=
    ⟨["STEPPER_MOVETO".toList], hspells, by decide⟩
  have hparse : parseLine 2 "STEPPER_MOVETO 2 800".toList =
      .ok ⟨.stepperMoveTo, ["2".toList, "800".toList], none⟩ := by
    have hdigit : '2' ∈ "2".toList := by decide
    rw [hgives.parseLine_eq 2 hdigit (by decide), complete_legacy rfl (by decide) le_rfl]
    rfl
  have hhome : Gives "STEPPER_HOME 0000000001".toList .stepperHome ["0000000001".toList] :=
    ⟨["STEPPER_HOME".toList], @Spells.followed _ "STEPPER_HOME".toList "0000000001".toList ' ' _ (by decide) rfl rfl
      (.single (by decide) rfl), by decide⟩
  have hlong : (parseLine 2 "STEPPER_HOME 0000000001".toList).toOption.isSome = false := by
    have hdigit : '0' ∈ "0000000001".toList := by decide
    rw [hhome.parseLine_eq 2 hdigit (by decide)]
    rfl
  refine ⟨fun h => ?_, ⟨_, hparse, rfl, rfl⟩, hlong⟩
  exact h.missing _ .stepperMoveTo 1 2 "2".toList ["800".toList] 2 _ rfl hgives (by decide) le_rfl le_rfl hparse rfl

end Coatheal.CommandLine
