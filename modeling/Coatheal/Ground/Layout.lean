import Coatheal.Ground.Protocol
import Coatheal.Library.Decimal
import Coatheal.Library.Lines
import Coatheal.Wiring.SameWires

/-!
# The layout the panels show

The onboard reports the maps it runs on, and the ground station draws its panels from the reply. It takes a
layout with six heaters, each on a sample of its own, and with every sample on one motor; of another one it
shows nothing. What it takes is what the onboard runs on.
-/

namespace Coatheal.Ground

open Library Library.Text Library.PyText
open Wiring
open Library.Lines (intercalate_cons mem_intercalate)

/-- An `ACK` reply. -/
def ack (command message : List Char) : List Char := "ACK,".toList ++ command ++ ',' :: message

/-- The fields of a reply, with semicolons between. -/
def kvBody (fields : List (List Char × List Char)) : List Char :=
  [';'].intercalate (fields.map fun field => field.1 ++ '=' :: field.2)

/-- The `join` of `GET_LAYOUT`. -/
def join (values : List ℕ) : List Char := [','].intercalate (values.map showNat)

/-- The fields of the answer to `GET_LAYOUT`. -/
def layoutFields (config : LayoutConfig) (leadMmPerRev : ℚ) : List (List Char × List Char) :=
  [("samples".toList, showNat config.sampleCount), ("heaters".toList, showNat config.heaterCount)] ++
    config.maps.motorSamples.zipIdx.map (fun motor => ("motor".toList ++ showNat motor.2, join motor.1)) ++
    [("heater_samples".toList, join config.maps.temperatureChannels),
      ("clicks".toList, join config.maps.max31865SampleIndices),
      ("rtd_channels".toList, join config.maps.sequentRtdChannels),
      ("heater_lines".toList, join config.maps.outputLines), ("lead_mm".toList, formatG leadMmPerRev)]

/-- The answer to `GET_LAYOUT`. -/
def getLayout (config : LayoutConfig) (leadMmPerRev : ℚ) : List Char :=
  ack "GET_LAYOUT".toList (kvBody (layoutFields config leadMmPerRev))

/-- A reply to a command as the ground station has it. -/
structure CommandResponse where
  ok : Bool
  command : List Char
  body : List Char
  error : List Char
  raw : List Char
deriving DecidableEq

/-- `parse_command_response`. -/
def parseCommandResponse (line : List Char) : CommandResponse :=
  let raw := strip line
  if raw = [] then ⟨false, [], [], "empty response".toList, raw⟩
  else
    match cut ',' raw with
    | none => ⟨false, [], [], "unrecognised reply".toList, raw⟩
    | some (tag, rest) =>
      let (command, text) := (cut ',' rest).getD (rest, [])
      if tag.map Char.toUpper = "ACK".toList then ⟨true, command, text, [], raw⟩
      else if tag.map Char.toUpper = "NACK".toList then ⟨false, command, [], text, raw⟩
      else ⟨false, [], [], "unrecognised reply".toList, raw⟩

/-- The items of a body: cut at the semicolons outside braces. -/
def bodyItems (depth : ℕ) (current : List Char) : List Char → List (List Char)
  | [] => if current = [] then [] else [current]
  | c :: rest =>
    let depth := if c = '{' then depth + 1 else if c = '}' then depth - 1 else depth
    if c = ';' ∧ depth = 0 then current :: bodyItems depth [] rest else bodyItems depth (current ++ [c]) rest

/-- The key and the value of an item; braces around the value are left out. -/
def bodyPair (item : List Char) : List Char × List Char :=
  match cut '=' item with
  | none => ([], item)
  | some (key, value) =>
    let value := strip value
    (strip key, if value.head? = some '{' ∧ value.getLast? = some '}' then value.tail.dropLast else value)

/-- `split_kv_body`. -/
def splitKvBody (body : List Char) : List (List Char × List Char) :=
  (((bodyItems 0 [] (strip body)).map strip).filter (· ≠ [])).map bodyPair

/-- `parse_kv_body`. -/
def parseKvBody (body : List Char) : Dict (List Char) :=
  ((splitKvBody body).filter (·.1 ≠ [])).foldl (fun dict pair => dict.set pair.1 pair.2) []

/-- The value of a key. -/
def Dict.get? {α : Type} (dict : Dict α) (key : List Char) : Option α :=
  (dict.find? fun entry => entry.1 = key).map Prod.snd

/-- What a panel knows of the samples and heaters of each motor, and of the wiring behind them. -/
structure Layout where
  motorSamples : List (List ℤ)
  heaterSamples : List ℤ
  clicks : List ℤ
  rtdChannels : List ℤ
  heaterLines : List ℤ
  reported : Bool
deriving DecidableEq

/-- `DEFAULT_LAYOUT`. -/
def defaultLayout : Layout where
  motorSamples := [[0, 1, 2, 3], [4, 5, 6, 7]]
  heaterSamples := [0, 1, 2, 3, 4, 5]
  clicks := [0, 4]
  rtdChannels := [1, 2, 3, 4, 5, 6, 7, 8]
  heaterLines := [19, 13, 6, 5, 24, 23]
  reported := false

/-- The `numbers` of `parse_layout`. -/
def numbers (kv : Dict (List Char)) (key : String) : Option (List ℤ) :=
  let raw := (kv.get? key.toList).getD []
  if raw = [] then some [] else ((raw.splitOn ',').filter fun piece => strip piece ≠ []).mapM int

/-- `HEATER_COUNT`. -/
def heaterCount : ℕ := 6

/-- `SAMPLE_COUNT`. -/
def sampleCount : ℤ := 8

/-- `parse_layout`. -/
def parseLayout (body : List Char) : Option Layout := do
  let kv := parseKvBody body
  let samples ← ((kv.get? "samples".toList).map int).getD (some sampleCount)
  let motor0 ← numbers kv "motor0"
  let motor1 ← numbers kv "motor1"
  let heaterSamples ← numbers kv "heater_samples"
  let clicks ← numbers kv "clicks"
  let rtdChannels ← numbers kv "rtd_channels"
  let heaterLines ← numbers kv "heater_lines"
  let layout : Layout := ⟨[motor0, motor1], heaterSamples, clicks, rtdChannels, heaterLines, true⟩
  let covered := (motor0 ++ motor1).mergeSort (· ≤ ·)
  if covered ≠ (List.range samples.toNat).map (Nat.cast : ℕ → ℤ) ∨ layout.heaterSamples.length ≠ heaterCount ∨
      (layout.heaterSamples.any fun sample => !covered.contains sample) ∨ ¬ layout.heaterSamples.Nodup then none
  else return layout

/-- A text that stays as it is in a body. -/
def PlainText (text : List Char) : Prop := ∀ c ∈ text, PyText.isSpace c = false ∧ c ≠ ';' ∧ c ≠ '{' ∧ c ≠ '}' ∧ c ≠ '='

/-- What stays as it is has nothing to strip. -/
theorem PlainText.strip {text : List Char} (h : PlainText text) : PyText.strip text = text :=
  trim_eq_self fun c hc => (h c hc).1

/-- Characters of an item are collected. -/
theorem bodyItems_append {piece : List Char} (h : ∀ c ∈ piece, c ≠ ';' ∧ c ≠ '{' ∧ c ≠ '}')
    (current rest : List Char) : bodyItems 0 current (piece ++ rest) = bodyItems 0 (current ++ piece) rest := by
  induction piece generalizing current with
  | nil => rw [List.nil_append, List.append_nil]
  | cons c piece ih =>
    obtain ⟨⟨hsemicolon, hopen, hclose⟩, hrest⟩ := List.forall_mem_cons.mp h
    rw [List.cons_append, bodyItems, if_neg hopen, if_neg hclose, if_neg fun hc => hsemicolon hc.1, ih hrest, List.append_assoc]
    rfl

/-- The items of a body are those it is made of. -/
theorem bodyItems_intercalate {pieces : List (List Char)} (hsome : ∀ piece ∈ pieces, piece ≠ [])
    (h : ∀ piece ∈ pieces, ∀ c ∈ piece, c ≠ ';' ∧ c ≠ '{' ∧ c ≠ '}') :
    bodyItems 0 [] ([';'].intercalate pieces) = pieces := by
  induction pieces with
  | nil => rfl
  | cons piece pieces ih =>
    obtain ⟨hpiece, hpieces⟩ := List.forall_mem_cons.mp h
    obtain ⟨hne, hnes⟩ := List.forall_mem_cons.mp hsome
    cases pieces with
    | nil =>
      have hitems := bodyItems_append hpiece [] []
      rw [List.append_nil, List.nil_append] at hitems
      rw [List.intercalate_singleton, hitems, bodyItems, if_neg hne]
    | cons next pieces =>
      rw [intercalate_cons, bodyItems_append hpiece, List.nil_append, bodyItems, if_pos (by decide)]
      exact congrArg (piece :: ·) (ih hnes hpieces)

/-- A plain field is read as it was written. -/
theorem bodyPair_field {key value : List Char} (hkey : PlainText key) (hvalue : PlainText value) :
    bodyPair (key ++ '=' :: value) = (key, value) := by
  have hequals : '=' ∉ key := fun hmem => (hkey '=' hmem).2.2.2.2 rfl
  have hbrace : ¬ (value.head? = some '{' ∧ value.getLast? = some '}') := by
    rintro ⟨hhead, -⟩
    exact (hvalue '{' (List.mem_of_head? hhead)).2.2.1 rfl
  unfold bodyPair
  rw [cut_append hequals]
  dsimp only
  rw [hkey.strip, hvalue.strip, if_neg hbrace]

/-- A body of plain fields is read as it was written. -/
theorem splitKvBody_kvBody {fields : List (List Char × List Char)}
    (h : ∀ field ∈ fields, PlainText field.1 ∧ PlainText field.2) : splitKvBody (kvBody fields) = fields := by
  have hspace : ∀ field ∈ fields, ∀ c ∈ field.1 ++ '=' :: field.2, PyText.isSpace c = false := by
    intro field hfield c hc
    rcases List.mem_append.mp hc with hkey | hvalue
    · exact ((h field hfield).1 c hkey).1
    · rcases List.mem_cons.mp hvalue with rfl | hvalue
      · decide
      · exact ((h field hfield).2 c hvalue).1
  have hplain : ∀ piece ∈ fields.map fun field => field.1 ++ '=' :: field.2,
      ∀ c ∈ piece, c ≠ ';' ∧ c ≠ '{' ∧ c ≠ '}' := by
    intro piece hpiece c hc
    obtain ⟨field, hfield, rfl⟩ := List.mem_map.mp hpiece
    rcases List.mem_append.mp hc with hkey | hvalue
    · obtain ⟨-, hsemicolon, hopen, hclose, -⟩ := (h field hfield).1 c hkey
      exact ⟨hsemicolon, hopen, hclose⟩
    · rcases List.mem_cons.mp hvalue with rfl | hvalue
      · decide
      · obtain ⟨-, hsemicolon, hopen, hclose, -⟩ := (h field hfield).2 c hvalue
        exact ⟨hsemicolon, hopen, hclose⟩
  have hsome : ∀ piece ∈ fields.map fun field => field.1 ++ '=' :: field.2, piece ≠ [] := by
    intro piece hpiece
    obtain ⟨field, -, rfl⟩ := List.mem_map.mp hpiece
    simp
  have hbody : strip (kvBody fields) = kvBody fields := by
    refine trim_eq_self fun c hc => ?_
    rcases mem_intercalate hc with rfl | ⟨piece, hpiece, hc⟩
    · decide
    · obtain ⟨field, hfield, rfl⟩ := List.mem_map.mp hpiece
      exact hspace field hfield c hc
  have hstrip : (fields.map fun field => field.1 ++ '=' :: field.2).map strip =
      fields.map fun field => field.1 ++ '=' :: field.2 := by
    rw [List.map_map]
    exact List.map_congr_left fun field hfield => trim_eq_self (hspace field hfield)
  have hkept : (fields.map fun field => field.1 ++ '=' :: field.2).filter (· ≠ []) =
      fields.map fun field => field.1 ++ '=' :: field.2 :=
    List.filter_eq_self.mpr fun piece hpiece => decide_eq_true (hsome piece hpiece)
  unfold splitKvBody
  rw [hbody, kvBody, bodyItems_intercalate hsome hplain, hstrip, hkept, List.map_map]
  refine (List.map_congr_left fun field hfield => ?_).trans (List.map_id fields)
  exact bodyPair_field (h field hfield).1 (h field hfield).2

/-- New keys are appended. -/
theorem foldl_set {fields dict : Dict (List Char)} (h : ((dict ++ fields).map Prod.fst).Nodup) :
    fields.foldl (fun dict pair => dict.set pair.1 pair.2) dict = dict ++ fields := by
  induction fields generalizing dict with
  | nil => exact (List.append_nil dict).symm
  | cons field fields ih =>
    have hsplit : dict ++ field :: fields = (dict ++ [field]) ++ fields := by simp
    have hnew : (dict.any fun entry => entry.1 = field.1) = false := by
      rw [List.any_eq_false]
      intro entry hentry hsame
      rw [List.map_append, List.nodup_append] at h
      exact h.2.2 entry.1 (List.mem_map_of_mem hentry) field.1 (List.mem_map_of_mem List.mem_cons_self)
        (of_decide_eq_true hsame)
    have hset : dict.set field.1 field.2 = dict ++ [field] := by
      unfold Dict.set
      rw [hnew, if_neg Bool.false_ne_true]
    rw [hsplit] at h ⊢
    rw [List.foldl_cons, hset, ih h]

/-- A body of plain fields with different keys is the dictionary of its fields. -/
theorem parseKvBody_kvBody {fields : Dict (List Char)}
    (h : ∀ field ∈ fields, PlainText field.1 ∧ PlainText field.2) (hkeys : (fields.map Prod.fst).Nodup)
    (hnamed : ∀ field ∈ fields, field.1 ≠ []) : parseKvBody (kvBody fields) = fields := by
  have hkept : fields.filter (·.1 ≠ []) = fields :=
    List.filter_eq_self.mpr fun field hfield => decide_eq_true (hnamed field hfield)
  unfold parseKvBody
  rw [splitKvBody_kvBody h, hkept]
  exact foldl_set hkeys

/-- A printed number has digits only. -/
theorem showNat_plain {value : ℕ} {c : Char} (h : c ∈ showNat value) :
    (PyText.isSpace c = false ∧ c ≠ ';' ∧ c ≠ '{' ∧ c ≠ '}' ∧ c ≠ '=') ∧ c ≠ ',' := by
  have hdigit := showNat_digits h
  refine ⟨⟨isSpace_of_isDigit hdigit, ?_, ?_, ?_, ?_⟩, ?_⟩
  all_goals
    rintro rfl
    exact absurd hdigit (by decide)

/-- Joined numbers are plain. -/
theorem plainText_join (values : List ℕ) : PlainText (join values) := by
  intro c hc
  rcases mem_intercalate hc with rfl | ⟨piece, hpiece, hc⟩
  · decide
  · obtain ⟨value, -, rfl⟩ := List.mem_map.mp hpiece
    exact (showNat_plain hc).1

/-- Joined numbers are split at the commas. -/
theorem splitOn_join {values : List ℕ} (hne : values ≠ []) : (join values).splitOn ',' = values.map showNat := by
  refine List.splitOn_intercalate ',' ?_ (by simpa using hne)
  intro piece hpiece hmem
  obtain ⟨number, -, rfl⟩ := List.mem_map.mp hpiece
  exact (showNat_plain hmem).2 rfl

/-- A printed number is read back. -/
theorem int_showNat {value : ℕ} (h : value < 2 ^ 64) : int (showNat value) = some (value : ℤ) := by
  have hshow : showInt (value : ℤ) = showNat value := if_neg (not_lt.mpr (Int.natCast_nonneg value))
  rw [← hshow]
  exact int_showInt_of_lt h

/-- Joined numbers are read back. -/
theorem numbers_join {kv : Dict (List Char)} {key : String} {values : List ℕ}
    (hkey : kv.get? key.toList = some (join values)) (hsize : ∀ value ∈ values, value < 2 ^ 64) :
    numbers kv key = some (values.map (Nat.cast : ℕ → ℤ)) := by
  unfold numbers
  rw [hkey, Option.getD_some]
  by_cases hvalues : values = []
  · rw [hvalues]
    rfl
  have hstrip (value : ℕ) : strip (showNat value) = showNat value := trim_eq_self fun c hc => (showNat_plain hc).1.1
  have hjoin : join values ≠ [] := by
    intro hnil
    have hsplit := splitOn_join hvalues
    have hmem : [] ∈ values.map showNat := by
      rw [← hsplit, hnil]
      exact List.mem_singleton_self _
    obtain ⟨value, -, hvalue⟩ := List.mem_map.mp hmem
    exact showNat_ne_nil value hvalue
  have hkept : (values.map showNat).filter (fun piece => decide (strip piece ≠ [])) = values.map showNat := by
    refine List.filter_eq_self.mpr fun piece hpiece => decide_eq_true ?_
    obtain ⟨value, -, rfl⟩ := List.mem_map.mp hpiece
    rw [hstrip]
    exact showNat_ne_nil value
  rw [if_neg hjoin, splitOn_join hvalues, hkept, Wiring.mapM_eq_some, List.forall₂_map_left_iff,
    List.forall₂_map_right_iff, List.forall₂_same]
  exact fun value hvalue => int_showNat (hsize value hvalue)

/-- A printed fraction is plain. -/
theorem plainText_formatG (x : ℚ) : PlainText (formatG x) := by
  intro c hc
  rcases Bool.or_eq_true_iff.mp (formatG_numeral hc) with hdigit | hmem
  · refine ⟨isSpace_of_isDigit hdigit, ?_, ?_, ?_, ?_⟩
    all_goals
      rintro rfl
      exact absurd hdigit (by decide)
  · have hall : ∀ c ∈ ['-', '+', '.', 'e'],
        PyText.isSpace c = false ∧ c ≠ ';' ∧ c ≠ '{' ∧ c ≠ '}' ∧ c ≠ '=' := forall_mem_of_all (by decide)
    exact hall c (of_decide_eq_true hmem)

/-- The fields of a configuration with two motors. -/
theorem layoutFields_eq {config : LayoutConfig} {samples0 samples1 : List ℕ} (leadMmPerRev : ℚ)
    (hmotors : config.maps.motorSamples = [samples0, samples1]) : layoutFields config leadMmPerRev =
      [("samples".toList, showNat config.sampleCount), ("heaters".toList, showNat config.heaterCount),
        ("motor0".toList, join samples0), ("motor1".toList, join samples1),
        ("heater_samples".toList, join config.maps.temperatureChannels),
        ("clicks".toList, join config.maps.max31865SampleIndices),
        ("rtd_channels".toList, join config.maps.sequentRtdChannels),
        ("heater_lines".toList, join config.maps.outputLines), ("lead_mm".toList, formatG leadMmPerRev)] := by
  have hfirst : "motor".toList ++ showNat 0 = "motor0".toList := by decide
  have hsecond : "motor".toList ++ showNat 1 = "motor1".toList := by decide
  unfold layoutFields
  rw [hmotors, ← hfirst, ← hsecond]
  rfl

/-- The fields are plain. -/
theorem plainText_layoutFields {config : LayoutConfig} {samples0 samples1 : List ℕ} (leadMmPerRev : ℚ)
    (hmotors : config.maps.motorSamples = [samples0, samples1]) :
    ∀ field ∈ layoutFields config leadMmPerRev, PlainText field.1 ∧ PlainText field.2 := by
  have hkey {key : List Char} (hall : (key.all fun c => decide (PyText.isSpace c = false ∧ c ≠ ';' ∧ c ≠ '{' ∧
      c ≠ '}' ∧ c ≠ '=')) = true) : PlainText key := forall_mem_of_all hall
  have hnumber (value : ℕ) : PlainText (showNat value) := fun c hc => (showNat_plain hc).1
  rw [layoutFields_eq leadMmPerRev hmotors]
  simp only [List.forall_mem_cons]
  refine ⟨⟨hkey (by decide), hnumber _⟩, ⟨hkey (by decide), hnumber _⟩, ⟨hkey (by decide), plainText_join _⟩,
    ⟨hkey (by decide), plainText_join _⟩, ⟨hkey (by decide), plainText_join _⟩, ⟨hkey (by decide), plainText_join _⟩,
    ⟨hkey (by decide), plainText_join _⟩, ⟨hkey (by decide), plainText_join _⟩,
    ⟨hkey (by decide), plainText_formatG _⟩, fun field hfield => absurd hfield List.not_mem_nil⟩

/-- The body of an acknowledgement that has no blank at its end is the message. -/
theorem body_ack {command message : List Char} (hcommand : ',' ∉ command) (hspace : ∀ c ∈ command, PyText.isSpace c = false)
    (hmessage : ∀ c ∈ message, PyText.isSpace c = false) : (parseCommandResponse (ack command message)).body = message := by
  have hstrip : strip (ack command message) = ack command message := by
    refine trim_eq_self fun c hc => ?_
    unfold ack at hc
    rcases List.mem_append.mp hc with hfront | hback
    · rcases List.mem_append.mp hfront with htag | hname
      · have htags : ∀ c ∈ "ACK,".toList, PyText.isSpace c = false := forall_mem_of_all (by decide)
        exact htags c htag
      · exact hspace c hname
    · rcases List.mem_cons.mp hback with rfl | htext
      · decide
      · exact hmessage c htext
  have htag : cut ',' (ack command message) = some ("ACK".toList, command ++ ',' :: message) := by
    have hno : ',' ∉ "ACK".toList := by decide
    exact cut_append hno _
  have hsome : ack command message ≠ [] := by
    unfold ack
    simp
  unfold parseCommandResponse
  dsimp only
  rw [hstrip, if_neg hsome, htag]
  dsimp only
  rw [cut_append hcommand, Option.getD_some]
  rfl

/-- The body of the answer is read as its fields. -/
theorem parseKvBody_getLayout {config : LayoutConfig} {samples0 samples1 : List ℕ} (leadMmPerRev : ℚ)
    (hmotors : config.maps.motorSamples = [samples0, samples1]) :
    parseKvBody (parseCommandResponse (getLayout config leadMmPerRev)).body = layoutFields config leadMmPerRev := by
  have hplain := plainText_layoutFields leadMmPerRev hmotors
  have hname : ∀ c ∈ "GET_LAYOUT".toList, PyText.isSpace c = false := forall_mem_of_all (by decide)
  have hbody : (parseCommandResponse (getLayout config leadMmPerRev)).body =
      kvBody (layoutFields config leadMmPerRev) := by
    refine body_ack (by decide) hname fun c hc => ?_
    rcases mem_intercalate hc with rfl | ⟨piece, hpiece, hc⟩
    · decide
    obtain ⟨field, hfield, rfl⟩ := List.mem_map.mp hpiece
    rcases List.mem_append.mp hc with hkey | hvalue
    · exact ((hplain field hfield).1 c hkey).1
    · rcases List.mem_cons.mp hvalue with rfl | hvalue
      · decide
      · exact ((hplain field hfield).2 c hvalue).1
  rw [hbody, parseKvBody_kvBody hplain]
  · have hkeys : ["samples".toList, "heaters".toList, "motor0".toList, "motor1".toList, "heater_samples".toList,
      "clicks".toList, "rtd_channels".toList, "heater_lines".toList, "lead_mm".toList].Nodup := by decide
    rw [layoutFields_eq leadMmPerRev hmotors]
    exact hkeys
  · rw [layoutFields_eq leadMmPerRev hmotors]
    simp

/-- The maps of a configuration in a panel's layout. -/
def layoutOf (config : LayoutConfig) : Layout where
  motorSamples := config.maps.motorSamples.map (List.map (Nat.cast : ℕ → ℤ))
  heaterSamples := config.maps.temperatureChannels.map (Nat.cast : ℕ → ℤ)
  clicks := config.maps.max31865SampleIndices.map (Nat.cast : ℕ → ℤ)
  rtdChannels := config.maps.sequentRtdChannels.map (Nat.cast : ℕ → ℤ)
  heaterLines := config.maps.outputLines.map (Nat.cast : ℕ → ℤ)
  reported := true

/-- Six heaters, each on a sample of its own, and each sample once on the motors. -/
def Usable (config : LayoutConfig) : Prop :=
  config.heaterCount = heaterCount ∧ config.maps.temperatureChannels.Nodup ∧
    config.maps.motorSamples.flatten.Perm (List.range config.sampleCount)

/-- Whether a layout is usable can be computed. -/
instance (config : LayoutConfig) : Decidable (Usable config) :=
  inferInstanceAs (Decidable (config.heaterCount = heaterCount ∧ config.maps.temperatureChannels.Nodup ∧
    config.maps.motorSamples.flatten.Perm (List.range config.sampleCount)))

/-- The answer is read as the maps when they are usable, and else not at all. -/
theorem parseLayout_getLayout {config : LayoutConfig} {samples0 samples1 : List ℕ} (leadMmPerRev : ℚ)
    (haccepted : config.Accepted) (hmotors : config.maps.motorSamples = [samples0, samples1])
    (hlines : ∀ line ∈ config.maps.outputLines, line < 2 ^ 64) :
    parseLayout (parseCommandResponse (getLayout config leadMmPerRev)).body =
      if Usable config then some (layoutOf config) else none := by
  have hcount : config.sampleCount ≤ 8 := by
    have hcard : config.maps.sequentRtdChannels ⊆ List.range' 1 8 := by
      intro channel hchannel
      have hrange := haccepted.onCard channel hchannel
      rw [List.mem_range'_1]
      omega
    have hlength := (haccepted.channelsApart.subperm hcard).length_le
    rwa [haccepted.channels, List.length_range'] at hlength
  have hbound {values : List ℕ} (h : ∀ value ∈ values, value < config.sampleCount) : ∀ value ∈ values, value < 2 ^ 64 :=
    fun value hvalue => (h value hvalue).trans_le (hcount.trans (by norm_num))
  have hkv := (parseKvBody_getLayout leadMmPerRev hmotors).trans (layoutFields_eq leadMmPerRev hmotors)
  generalize hbody : (parseCommandResponse (getLayout config leadMmPerRev)).body = body at hkv ⊢
  have hsamples : ((parseKvBody body).get? "samples".toList).map int = some (some (config.sampleCount : ℤ)) := by
    rw [hkv]
    exact congrArg some (int_showNat (hcount.trans_lt (by norm_num)))
  have h0 : numbers (parseKvBody body) "motor0" = some (samples0.map (Nat.cast : ℕ → ℤ)) :=
    numbers_join (by rw [hkv]; rfl) (hbound (haccepted.pulled samples0 (by simp [hmotors])))
  have h1 : numbers (parseKvBody body) "motor1" = some (samples1.map (Nat.cast : ℕ → ℤ)) :=
    numbers_join (by rw [hkv]; rfl) (hbound (haccepted.pulled samples1 (by simp [hmotors])))
  have hheated : numbers (parseKvBody body) "heater_samples" =
      some (config.maps.temperatureChannels.map (Nat.cast : ℕ → ℤ)) :=
    numbers_join (by rw [hkv]; rfl) (hbound haccepted.heated)
  have hclicks : numbers (parseKvBody body) "clicks" =
      some (config.maps.max31865SampleIndices.map (Nat.cast : ℕ → ℤ)) :=
    numbers_join (by rw [hkv]; rfl) (hbound haccepted.clicked)
  have hchannels : numbers (parseKvBody body) "rtd_channels" =
      some (config.maps.sequentRtdChannels.map (Nat.cast : ℕ → ℤ)) :=
    numbers_join (by rw [hkv]; rfl) fun channel hchannel =>
      (haccepted.onCard channel hchannel).2.trans_lt (by norm_num)
  have hheaterLines : numbers (parseKvBody body) "heater_lines" =
      some (config.maps.outputLines.map (Nat.cast : ℕ → ℤ)) := numbers_join (by rw [hkv]; rfl) hlines
  unfold parseLayout
  simp only [hsamples, h0, h1, hheated, hclicks, hchannels, hheaterLines, Option.getD_some, Option.bind_eq_bind,
    Option.bind_some]
  have hcovered : ((samples0 ++ samples1).map (Nat.cast : ℕ → ℤ)).mergeSort (· ≤ ·) =
      (List.range config.sampleCount).map (Nat.cast : ℕ → ℤ) ↔
        config.maps.motorSamples.flatten.Perm (List.range config.sampleCount) := by
    rw [Wiring.mergeSort_eq_range, List.map_perm_map_iff Wiring.cast_injective, hmotors, List.flatten_cons,
      List.flatten_cons, List.flatten_nil, List.append_nil]
  have hlength : (config.maps.temperatureChannels.map (Nat.cast : ℕ → ℤ)).length = config.heaterCount := by
    rw [List.length_map, haccepted.temperatureChannels]
  have hnodup : (config.maps.temperatureChannels.map (Nat.cast : ℕ → ℤ)).Nodup ↔
      config.maps.temperatureChannels.Nodup := List.nodup_map_iff Wiring.cast_injective
  have hreads (hall : ((samples0 ++ samples1).map (Nat.cast : ℕ → ℤ)).mergeSort (· ≤ ·) =
      (List.range config.sampleCount).map (Nat.cast : ℕ → ℤ)) :
      ¬ ((config.maps.temperatureChannels.map (Nat.cast : ℕ → ℤ)).any fun sample =>
        !(((samples0 ++ samples1).map (Nat.cast : ℕ → ℤ)).mergeSort (· ≤ ·)).contains sample) = true := by
    intro hany
    obtain ⟨sample, hsample, hmissing⟩ := List.any_eq_true.mp hany
    obtain ⟨number, hnumber, rfl⟩ := List.mem_map.mp hsample
    have hmem : (number : ℤ) ∈ (List.range config.sampleCount).map (Nat.cast : ℕ → ℤ) :=
      List.mem_map_of_mem (List.mem_range.mpr (haccepted.heated number hnumber))
    rw [hall, List.contains_iff_mem.mpr hmem] at hmissing
    exact absurd hmissing (by decide)
  rw [← List.map_append, Int.toNat_natCast, hlength]
  by_cases hall : config.maps.motorSamples.flatten.Perm (List.range config.sampleCount) ∧
      config.heaterCount = heaterCount ∧ config.maps.temperatureChannels.Nodup
  · obtain ⟨hperm, hheaters, hapart⟩ := hall
    have husable : Usable config := ⟨hheaters, hapart, hperm⟩
    have hsame := hcovered.mpr hperm
    rw [if_neg, if_pos husable, layoutOf, hmotors]
    · rfl
    · rintro (hno | hno | hno | hno)
      · exact hno hsame
      · exact hno hheaters
      · exact hreads hsame hno
      · exact hno (hnodup.mpr hapart)
  · have hunusable : ¬ Usable config := fun husable => hall ⟨husable.2.2, husable.1, husable.2.1⟩
    rw [if_pos, if_neg hunusable]
    by_contra hno
    rw [not_or, not_or, not_or, not_not, not_not, not_not] at hno
    exact hall ⟨hcovered.mp hno.1, hno.2.1, hnodup.mp hno.2.2.2⟩

/-- Digits write a number below the power of ten with as many zeros. -/
theorem ofDigitChars_lt {text : List Char} (h : ∀ c ∈ text, c.isDigit = true) (value : ℕ) :
    Nat.ofDigitChars 10 text value < (value + 1) * 10 ^ text.length := by
  induction text generalizing value with
  | nil => simp
  | cons c text ih =>
    obtain ⟨hdigit, hrest⟩ := List.forall_mem_cons.mp h
    have hrange := toNat_of_isDigit hdigit
    have hzero : '0'.toNat = 48 := rfl
    rw [Nat.ofDigitChars_cons]
    refine (ih hrest _).trans_le ?_
    rw [List.length_cons, Nat.pow_succ, Nat.mul_comm (10 ^ text.length) 10, ← Nat.mul_assoc]
    exact Nat.mul_le_mul_right _ (by omega)

/-- A line of the onboard's specimens has at most four digits. -/
theorem line_lt {value : List Char} {specimens : List SpecimenConfig} (h : parseSpecimenList value = some specimens) :
    ∀ line ∈ linesOf specimens, line < 10000 := by
  have hdigits {text : List Char} {number : ℕ} (hnumber : parseDigits text = some number) : number < 10000 := by
    obtain ⟨-, hlength, hdigit, rfl⟩ := parseDigits_eq_some.mp hnumber
    calc Nat.ofDigitChars 10 text 0 < (0 + 1) * 10 ^ text.length := ofDigitChars_lt hdigit 0
      _ = 10 ^ text.length := Nat.one_mul _
      _ ≤ 10 ^ 4 := Nat.pow_le_pow_right (by decide) hlength
  obtain ⟨out, hout, h⟩ := Option.bind_eq_some_iff.mp h
  split at h
  case isTrue => cases h
  case isFalse =>
    obtain rfl := Option.some.inj h
    intro line hline
    obtain ⟨specimen, hspecimen, hheated⟩ := List.mem_filterMap.mp hline
    have hread : List.Forall₂ (fun specimen item => parseItem item = some specimen) out (getlines ',' value) :=
      (mapM_eq_some.mp hout).flip
    obtain ⟨item, hitem⟩ := Spelling.exists_of_forall₂ hread specimen hspecimen
    unfold parseItem at hitem
    dsimp only at hitem
    split at hitem
    case h_1 =>
      obtain ⟨channel, -, rfl⟩ := Option.map_eq_some_iff.mp hitem
      cases hheated
    case h_2 front back hcut =>
      obtain ⟨channel, -, hitem⟩ := Option.bind_eq_some_iff.mp hitem
      obtain ⟨parsed, hparsed, hitem⟩ := Option.bind_eq_some_iff.mp hitem
      obtain rfl := Option.some.inj hitem
      obtain rfl := Option.some.inj hheated
      exact hdigits hparsed

/-- A number that a stream reads into 64 bits has 64 bits. -/
theorem streamSize_lt {text : List Char} {size : ℕ} (h : Literal.streamSize text = some size) : size < 2 ^ 64 := by
  unfold Literal.streamSize at h
  cases hsplit : splitSign text with
  | mk negative body =>
    rw [hsplit] at h
    obtain ⟨magnitude, -, h⟩ := Option.bind_eq_some_iff.mp h
    split at h
    case isTrue hmagnitude =>
      obtain rfl := Option.some.inj h
      split
      · exact Nat.mod_lt _ (by norm_num)
      · exact hmagnitude
    case isFalse => cases h

/-- The lines of a loaded configuration are numbers of 64 bits. -/
theorem outputLines_lt {values : Values} {config : LayoutConfig} (hread : readLayout values = some config) :
    ∀ line ∈ config.maps.outputLines, line < 2 ^ 64 := by
  cases hset : values.sets specimenKeys with
  | true =>
    obtain ⟨first, second, one, two, hone, htwo, -, hmaps⟩ := readLayout_specimens hread hset
    rw [hmaps, fillMaps_eq]
    intro line hline
    have hboth : line ∈ linesOf one ++ linesOf two := by
      have hflat : [one, two].flatten = one ++ two := by simp
      rw [hflat] at hline
      unfold linesOf at hline ⊢
      rwa [List.filterMap_append] at hline
    have hsmall : line < 10000 := (List.mem_append.mp hboth).elim (line_lt hone line) (line_lt htwo line)
    exact hsmall.trans (by norm_num)
  | false =>
    obtain ⟨-, -, hlines, -⟩ := readLayout_legacy hread hset
    unfold Values.readOr at hlines
    cases hvalue : values "heater.output_lines" with
    | none =>
      rw [hvalue] at hlines
      rw [← Option.some.inj hlines]
      decide
    | some value =>
      rw [hvalue] at hlines
      intro line hline
      have hread : List.Forall₂ (fun size item => (let trimmed := trim Text.isSpace item
          if trimmed = [] then none else parseNumber trimmed) = some size) config.maps.outputLines
          (getlines ',' value) := (mapM_eq_some.mp hlines).flip
      obtain ⟨item, hitem⟩ := Spelling.exists_of_forall₂ hread line hline
      dsimp only at hitem
      split at hitem
      case isTrue => cases hitem
      case isFalse => exact streamSize_lt hitem

/-- A loaded configuration has two motors. -/
theorem motorSamples_eq {values : Values} {config : LayoutConfig} (hread : readLayout values = some config) :
    ∃ samples0 samples1, config.maps.motorSamples = [samples0, samples1] := by
  cases hset : values.sets specimenKeys with
  | true =>
    obtain ⟨first, second, one, two, -, -, -, hmaps⟩ := readLayout_specimens hread hset
    rw [hmaps, fillMaps_eq]
    exact ⟨_, _, rfl⟩
  | false =>
    obtain ⟨-, -, -, -, -, -, samples0, samples1, -, -, hmotors⟩ := readLayout_legacy hread hset
    exact ⟨samples0, samples1, hmotors⟩

/-- The panels take exactly the layout that the onboard runs on when it is usable, and none, not the default
one, when it is not. Of specimens it is usable when six are heated. -/
theorem parseLayout_loaded {values : Values} {config : LayoutConfig} (leadMmPerRev : ℚ)
    (hload : loadLayout values = some config) :
    parseLayout (parseCommandResponse (getLayout config leadMmPerRev)).body =
        (if Usable config then some (layoutOf config) else none) ∧
      parseLayout (parseCommandResponse (getLayout config leadMmPerRev)).body ≠ some defaultLayout ∧
      (values.sets specimenKeys = true → (Usable config ↔ config.heaterCount = heaterCount)) := by
  obtain ⟨hread, haccepted⟩ := loadLayout_eq_some.mp hload
  obtain ⟨samples0, samples1, hmotors⟩ := motorSamples_eq hread
  have hshown := parseLayout_getLayout leadMmPerRev haccepted hmotors (outputLines_lt hread)
  refine ⟨hshown, ?_, fun hset => ?_⟩
  · rw [hshown]
    split
    · exact fun hsame => Bool.true_eq_false.mp (congrArg Layout.reported (Option.some.inj hsame))
    · exact fun hnone => nomatch hnone
  obtain ⟨first, second, one, two, -, -, hproper, hmaps⟩ := readLayout_specimens hread hset
  obtain ⟨-, hsound⟩ := fillMaps_same hproper
  rw [← hmaps] at hsound
  exact ⟨And.left, fun hheaters => ⟨hheaters, hsound.heaters.1, hsound.partition⟩⟩

/-- The layout of a file that sets nothing is shown. -/
theorem parseLayout_loaded_default : ∃ config, loadLayout (fun _ => none) = some config ∧
    parseLayout (parseCommandResponse (getLayout config 2)).body = some (layoutOf config) := by
  have hload : loadLayout (fun _ => none) = some ⟨8, 6, ⟨[1, 2, 3, 4, 5, 6, 7, 8], [0, 4], [19, 13, 6, 5, 24, 23],
      [0, 1, 2, 3, 4, 5], [[0, 1, 2, 3], [4, 5, 6, 7]]⟩⟩ := by decide +kernel
  refine ⟨_, hload, ?_⟩
  rw [(parseLayout_loaded 2 hload).1, if_pos (by decide)]

/-- A configuration with five heaters. -/
def fiveHeaters : Values := fun key =>
  if key = "hardware.heater_count" then some "5".toList
  else if key = "motor0.specimens" then some "ch1:19,ch2:13,ch3:6,ch4:5".toList
  else if key = "motor1.specimens" then some "ch5:24,ch6,ch7,ch8".toList
  else none

/-- The onboard runs on it, and the panels show nothing of it. -/
theorem fiveHeaters_unreadable : ∃ config, loadLayout fiveHeaters = some config ∧
    parseLayout (parseCommandResponse (getLayout config 2)).body = none := by
  have hload : loadLayout fiveHeaters = some ⟨8, 5, ⟨[1, 2, 3, 4, 5, 6, 7, 8], [0, 4], [19, 13, 6, 5, 24],
      [0, 1, 2, 3, 4], [[0, 1, 2, 3], [4, 5, 6, 7]]⟩⟩ := by decide +kernel
  obtain ⟨hread, haccepted⟩ := loadLayout_eq_some.mp hload
  refine ⟨_, hload, ?_⟩
  rw [parseLayout_getLayout 2 haccepted rfl (outputLines_lt hread), if_neg (by decide)]

end Coatheal.Ground
