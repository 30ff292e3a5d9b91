import Partita.Config
import Partita.Log
import Partita.Score.Numeral
import Partita.Text.Lower

/-! Reading a configuration from named values. Values are taken generously:
numbers from numeric text, integers from whole numbers, flags from the usual
words. Every field that cannot be read is reported, fields in their order and
unknown names last. -/
namespace Partita

variable {α : Type} [Scalar α]

inductive Setting (α : Type) where
  | null
  | bool (b : Bool)
  | integer (n : Int)
  | real (x : α)
  | text (s : String)
  | list
  | table (fields : List (String × Setting α))
  deriving Inhabited

/-- A plain value as a log shows it. -/
def Setting.shown : Setting α → String
  | null => "None"
  | bool b => if b then "True" else "False"
  | integer n => toString n
  | real x => Scalar.text x
  | text s => s
  | list | table _ => ""

inductive Refusal where
  | floatType
  | floatParsing
  | intType
  | intParsing
  | intFromFloat
  | finiteNumber
  | boolType
  | boolParsing
  | valueError
  | greaterThan
  | greaterThanEqual
  | lessThanEqual
  | extraForbidden
  | modelType
  | frozenInstance
  deriving DecidableEq, Repr

def Refusal.code : Refusal → String
  | floatType => "float_type"
  | floatParsing => "float_parsing"
  | intType => "int_type"
  | intParsing => "int_parsing"
  | intFromFloat => "int_from_float"
  | finiteNumber => "finite_number"
  | boolType => "bool_type"
  | boolParsing => "bool_parsing"
  | valueError => "value_error"
  | greaterThan => "greater_than"
  | greaterThanEqual => "greater_than_equal"
  | lessThanEqual => "less_than_equal"
  | extraForbidden => "extra_forbidden"
  | modelType => "model_type"
  | frozenInstance => "frozen_instance"

/-- A refused field, by its path. -/
structure Violation where
  path : List String
  refusal : Refusal
  deriving DecidableEq, Repr

namespace Setting

/-- Takes the single underscores between characters out of a numeral. -/
def withoutUnderscores (cs : List Char) : Option (List Char) :=
  if cs.head? == some '_' || cs.getLast? == some '_' || doubled cs then none
  else some (cs.filter (· != '_'))
where
  doubled : List Char → Bool
    | '_' :: '_' :: _ => true
    | _ :: rest => doubled rest
    | [] => false

def isNumeral (cs : List Char) : Bool :=
  let digits (cs : List Char) := (cs.takeWhile Char.isDigit, cs.dropWhile Char.isDigit)
  let (whole, rest) := digits (Score.readSign cs).2
  let (fraction, rest) := match rest with
    | '.' :: tail => digits tail
    | rest => ([], rest)
  let exponent := match rest with
    | [] => true
    | c :: tail =>
      (c == 'e' || c == 'E') &&
        (let (ds, rest) := digits (Score.readSign tail).2; !ds.isEmpty && rest.isEmpty)
  !(whole.isEmpty && fraction.isEmpty) && exponent

/-- The number a text denotes. -/
def parseReal? (s : String) : Option α :=
  let cs := Text.trimChars s.toList
  let plain (cs : List Char) : Option α :=
    if isNumeral cs then (Score.Numeral.read? cs).map Score.Numeral.value
    else
      let (negative, word) := Score.readSign cs
      match Text.lower (String.ofList word) with
      | "inf" | "infinity" => some (if negative then Scalar.negInf else -Scalar.negInf)
      | "nan" => some (0 / 0)
      | _ => none
  plain cs <|> (withoutUnderscores cs).bind plain

/-- The integer a text denotes; a fraction of zeros is passed over. -/
def parseInteger? (s : String) : Option Int :=
  let plain (cs : List Char) : Option Int :=
    let (negative, digits) := Score.readSign cs
    if !digits.isEmpty && digits.all Char.isDigit then
      let n : Int := Text.digitsValue digits
      some (if negative then -n else n)
    else none
  let cs := Text.trimChars s.toList
  let cs := match cs.dropWhile (· != '.') with
    | '.' :: zeros => if zeros.all (· == '0') then cs.takeWhile (· != '.') else cs
    | _ => cs
  plain cs <|> (withoutUnderscores cs).bind plain

def toReal : Setting α → Except Refusal α
  | real x => .ok x
  | integer n =>
    let x : α := Scalar.ofInt n
    if Scalar.isFinite x then .ok x else .error .floatType
  | bool b => .ok (if b then 1 else 0)
  | text s => match parseReal? s with
    | some x => .ok x
    | none => .error .floatParsing
  | null | list | table _ => .error .floatType

def toInteger : Setting α → Except Refusal Int
  | integer n => .ok n
  | bool b => .ok (if b then 1 else 0)
  | real x => match Scalar.truncate x with
    | .error _ => .error .finiteNumber
    | .ok n => if Scalar.ofInt n == x then .ok n else .error .intFromFloat
  | text s => match parseInteger? s with
    | some n => .ok n
    | none => .error .intParsing
  | null | list | table _ => .error .intType

def toBool : Setting α → Except Refusal Bool
  | bool b => .ok b
  | integer n => flag n
  | real x => match Scalar.truncate x with
    | .error _ => .error .boolType
    | .ok n => if Scalar.ofInt n == x then flag n else .error .boolType
  | text s =>
    let word := Text.lower s
    if ["1", "on", "t", "true", "y", "yes"].contains word then .ok true
    else if ["0", "off", "f", "false", "n", "no"].contains word then .ok false
    else .error .boolParsing
  | null | list | table _ => .error .boolType
where
  flag (n : Int) : Except Refusal Bool :=
    if n == 0 then .ok false else if n == 1 then .ok true else .error .boolParsing

end Setting

/-- Reading keeps the violations and log records. -/
abbrev ReadingM := StateM (Array Violation × Array Record)

namespace Config

abbrev Table (α : Type) := List (String × Setting α)

def refuse (path : List String) (r : Refusal) : ReadingM Unit :=
  modify fun (vs, logs) => (vs.push ⟨path, r⟩, logs)

/-- Reads a field; a missing one has its default value. -/
def field {β : Type} (path : List String) (t : Table α) (name : String) (default : β)
    (read : Setting α → Except Refusal β) (check : β → Option Refusal) : ReadingM β := do
  match t.lookup name with
  | none => return default
  | some v =>
    match read v with
    | .error r =>
      refuse (path ++ [name]) r
      return default
    | .ok b =>
      match check b with
      | some r =>
        refuse (path ++ [name]) r
        return default
      | none => return b

def anything {β : Type} (_ : β) : Option Refusal := none

def atLeast (low : α) (x : α) : Option Refusal := if x < low then some .greaterThanEqual else none

def above (low : α) (x : α) : Option Refusal := if x ≤ low then some .greaterThan else none

def between (low high : α) (x : α) : Option Refusal :=
  if high < x then some .lessThanEqual else atLeast low x

def noOthers (path : List String) (t : Table α) (names : List String) : ReadingM Unit := do
  for (name, _) in t do
    unless names.contains name do refuse (path ++ [name]) .extraForbidden

def readCompressor (path : List String) (t : Table α) : ReadingM (Compressor α) := do
  let base : Compressor α := default
  let threshold ← field path t "threshold" base.threshold Setting.toReal anything
  let ratio ← field path t "ratio" base.ratio Setting.toReal (atLeast 1)
  let attack ← field path t "attack" base.attack Setting.toReal (atLeast 0)
  let release ← field path t "release" base.release Setting.toReal (atLeast 0)
  let enabled ← field path t "enabled" base.enabled Setting.toBool anything
  noOthers path t ["threshold", "ratio", "attack", "release", "enabled"]
  return ⟨threshold, ratio, attack, release, enabled⟩

def readLimiter (path : List String) (t : Table α) : ReadingM (Limiter α) := do
  let base : Limiter α := default
  let threshold ← field path t "threshold" base.threshold Setting.toReal anything
  let release ← field path t "release" base.release Setting.toReal (atLeast 0)
  let enabled ← field path t "enabled" base.enabled Setting.toBool anything
  noOthers path t ["threshold", "release", "enabled"]
  return ⟨threshold, release, enabled⟩

def nested {β : Type} (t : Table α) (name : String) (default : β)
    (read : List String → Table α → ReadingM β) : ReadingM β := do
  match t.lookup name with
  | none => return default
  | some (.table fields) => read [name] fields
  | some _ =>
    refuse [name] .modelType
    return default

/-- A tempo that is not positive is replaced by the default one. -/
def readBpm (t : Table α) : ReadingM α := do
  let base : Config α := default
  let bpm ← field [] t "bpm" base.bpm Setting.toReal anything
  if bpm ≤ 0 then
    modify fun (vs, logs) =>
      (vs, logs.push ⟨.warning, "config", s!"Non-positive BPM {Scalar.text bpm}; using {Scalar.text base.bpm}"⟩)
    return base.bpm
  else return bpm

def rateCheck (rate : Int) : Option Refusal := if rate < 8000 then some .valueError else none

def channelCheck (channels : Int) : Option Refusal :=
  if channels == 1 || channels == 2 then none else some .valueError

def read (t : Table α) : ReadingM (Config α) := do
  let base : Config α := default
  let bpm ← readBpm t
  let renderRate ← field [] t "render_sample_rate" base.renderRate Setting.toInteger rateCheck
  let playbackRate ← field [] t "playback_sample_rate" base.playbackRate Setting.toInteger rateCheck
  let channels ← field [] t "channels" base.channels Setting.toInteger channelCheck
  let finishTimeout ← field [] t "finish_timeout" base.finishTimeout Setting.toReal (above 0)
  let finishGrace ← field [] t "finish_grace" base.finishGrace Setting.toReal (atLeast 0)
  let masterVolume ← field [] t "master_volume" base.masterVolume Setting.toReal (between 0 1)
  let realtimeRender ← field [] t "realtime_render" base.realtimeRender Setting.toBool anything
  let compressor ← nested t "compressor" base.compressor readCompressor
  let limiter ← nested t "limiter" base.limiter readLimiter
  noOthers [] t
    ["bpm", "render_sample_rate", "playback_sample_rate", "channels", "finish_timeout",
     "finish_grace", "master_volume", "realtime_render", "compressor", "limiter"]
  return ⟨bpm, renderRate, playbackRate, channels, finishTimeout, finishGrace, masterVolume,
    realtimeRender, compressor, limiter⟩

/-- The settings that read as this compressor. -/
def ofCompressor (c : Compressor α) : Table α :=
  [("threshold", .real c.threshold), ("ratio", .real c.ratio), ("attack", .real c.attack),
    ("release", .real c.release), ("enabled", .bool c.enabled)]

/-- The settings that read as this limiter. -/
def ofLimiter (c : Limiter α) : Table α :=
  [("threshold", .real c.threshold), ("release", .real c.release), ("enabled", .bool c.enabled)]

/-- The settings that read as this configuration. -/
def settings (c : Config α) : Table α :=
  [("bpm", .real c.bpm), ("render_sample_rate", .integer c.renderRate),
    ("playback_sample_rate", .integer c.playbackRate), ("channels", .integer c.channels),
    ("finish_timeout", .real c.finishTimeout), ("finish_grace", .real c.finishGrace),
    ("master_volume", .real c.masterVolume), ("realtime_render", .bool c.realtimeRender),
    ("compressor", .table (ofCompressor c.compressor)), ("limiter", .table (ofLimiter c.limiter))]

/-- What a reading gives: a value without violations, or the violations; and the
log records in both cases. -/
def outcome {β : Type} (r : ReadingM β) : Except (List Violation) β × List Record :=
  let (b, violations, logs) := r.run (#[], #[])
  (if violations.isEmpty then .ok b else .error violations.toList, logs.toList)

end Config

end Partita
