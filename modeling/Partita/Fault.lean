import Partita.Scalar
import Partita.Text.Quoted

/-! What can go wrong. A fault is a cause; `kind` and `message` are the words a
report uses for it. -/
namespace Partita

/-- The largest number of digits an integer token may have. -/
def maxIntegerDigits : Nat := 4300

/-- A command line that makes no sense. Such a line is reported and passed
over. -/
inductive Misuse where
  | waitDuration (token : Option String)
  | waitsecDuration (token : Option String)
  | playNothing
  | toneWithoutNote
  | tonesTooShort
  | sampleWithoutName
  | sampleNotFound (name : String)
  | bpmValue (token : Option String)
  | tempoValue (token : Option String)
  | filterKind (kind : String)
  | effectKind (token : Option String)
  /-- A note that cannot be read, with the reason. -/
  | note (reason : String)
  deriving DecidableEq, Repr

namespace Misuse

def shown (token : Option String) : String := token.getD "None"

def message : Misuse → String
  | waitDuration token => s!"Invalid wait duration: {shown token}"
  | waitsecDuration token => s!"Invalid waitsec duration: {shown token}"
  | playNothing => "play requires a block name"
  | toneWithoutNote => "tone requires a note"
  | tonesTooShort => "tones requires at least one note and a duration"
  | sampleWithoutName => "sample requires a sample name"
  | sampleNotFound name => s!"Sample {name} not found"
  | bpmValue token => s!"Invalid BPM value: {shown token}"
  | tempoValue token => s!"Invalid tempo value: {shown token}"
  | filterKind kind => s!"Unknown filter type: {kind}"
  | effectKind token => s!"Unknown effect type: {shown token}"
  | note reason => reason

end Misuse

inductive Fault where
  /-- An integer was asked of a number that is none. -/
  | notANumber
  /-- An integer was asked of an infinite number. -/
  | infinite
  /-- An integer lies beyond every number. -/
  | integerTooLarge
  /-- A quotient of integers lies beyond every number. -/
  | quotientTooLarge
  /-- A power lies beyond every number. -/
  | powerOutOfRange
  | divisionByZero
  /-- A signal was asked to have a negative length. -/
  | negativeLength
  /-- A signal was asked to have more samples than can be addressed. -/
  | lengthLimit
  /-- A signal was to be made longer by more samples than can be counted. -/
  | paddingLimit
  /-- Two signals that are combined have different lengths. -/
  | lengthMismatch
  /-- A filter was asked to pass a band outside the open unit interval. -/
  | filterBand
  /-- An integer token is too long to be read. -/
  | tooManyDigits (digits : Nat)
  | invalidNote (token : String)
  | unknownFilter (kind : String)
  /-- Estimates of blocks are nested too deep. -/
  | nestingLimit
  /-- A call on the engine was refused. -/
  | callFailed (name : String)
  /-- A call on the engine was refused because it is not set up for it. -/
  | callUnsupported (name : String)
  /-- A route of the engine could not be built. -/
  | routeUnavailable (mode : String)
  | unknownRoute (mode : String)
  /-- No route could be built for a block. -/
  | noRoute (block : String)
  /-- A voice was asked of a mix that is done. -/
  | mixClosed
  | missingSample (name : String)
  | unknownEffect (name : String)
  | misuse (m : Misuse)
  | noMain
  /-- A mix must have a positive length. -/
  | mixLength (seconds : String)
  | renderedTwice
  | nothingRendered
  /-- Rendering failed because of another fault. -/
  | renderFailed (cause : Fault)
  /-- A failure that is passed on as it was told. -/
  | foreign (kind message : String)
  | monoChannel (index : Int)
  | channelIndex
  /-- Channels were asked of samples that have no channel axis. -/
  | noChannelAxis
  | sampleShape (name : String)
  | audioShape
  | channelCount (count : Nat)
  | sampleUnreadable (path : String)
  /-- A number does not fit a field of a header. -/
  | fieldRange
  /-- A sample rate cannot be converted. -/
  | rateConversion
  | noBackend
  | missingFile (path : String)
  /-- A file was expected and a folder found. -/
  | isFolder (path : String)
  /-- A folder was expected on the way to a file. -/
  | notFolder (path : String)
  /-- A folder was to be made where a file is. -/
  | fileInTheWay (path : String)
  /-- Bytes that are no text. -/
  | undecodable (reason : String)
  deriving DecidableEq, Repr

namespace Fault

def ofNotFinite : NotFinite → Fault
  | .nan => .notANumber
  | .infinite => .infinite

/-- The word a report uses for the kind of failure. -/
def kind : Fault → String
  | notANumber | negativeLength | lengthLimit | lengthMismatch | filterBand | tooManyDigits _ | invalidNote _
  | unknownFilter _ | rateConversion => "ValueError"
  | infinite | integerTooLarge | quotientTooLarge | powerOutOfRange => "OverflowError"
  | divisionByZero => "ZeroDivisionError"
  | paddingLimit => "TypeError"
  | nestingLimit => "RecursionError"
  | callFailed _ | routeUnavailable _ => "RuntimeError"
  | callUnsupported _ | unknownRoute _ | noRoute _ | mixClosed => "EngineSetupError"
  | missingSample _ | unknownEffect _ => "KeyError"
  | misuse _ => "CommandError"
  | noMain => "ScriptError"
  | mixLength _ | renderedTwice | nothingRendered | renderFailed _ => "RenderError"
  | foreign kind _ => kind
  | monoChannel _ | sampleShape _ | audioShape | channelCount _ | sampleUnreadable _ => "InvalidAudioError"
  | channelIndex => "IndexError"
  | noChannelAxis => "AxisError"
  | fieldRange => "error"
  | noBackend => "PlaybackError"
  | missingFile _ => "FileNotFoundError"
  | isFolder _ => "IsADirectoryError"
  | notFolder _ => "NotADirectoryError"
  | fileInTheWay _ => "FileExistsError"
  | undecodable _ => "UnicodeDecodeError"

def message : Fault → String
  | notANumber => "cannot convert float NaN to integer"
  | infinite => "cannot convert float infinity to integer"
  | integerTooLarge => "int too large to convert to float"
  | quotientTooLarge => "integer division result too large for a float"
  | powerOutOfRange => "(34, 'Numerical result out of range')"
  | divisionByZero => "float division by zero"
  | negativeLength => "number of samples must be non-negative"
  | lengthLimit => "Maximum allowed dimension exceeded"
  | paddingLimit => "`pad_width` must be of integral type."
  | lengthMismatch => "operands could not be broadcast together"
  | filterBand => "digital filter critical frequencies must lie between 0 and 1"
  | tooManyDigits digits =>
    s!"Exceeds the limit ({maxIntegerDigits} digits) for integer string conversion: value has " ++
    s!"{digits} digits; use sys.set_int_max_str_digits() to increase the limit"
  | invalidNote token => s!"Invalid note: {token}"
  | unknownFilter name => s!"Unknown filter type: {name}"
  | nestingLimit => "maximum recursion depth exceeded"
  | callFailed name | callUnsupported name => s!"{name} failed"
  | routeUnavailable mode => s!"{mode} chain unavailable"
  | unknownRoute mode => s!"Unknown chain mode: {mode}"
  | noRoute block => s!"Complete audio failure for {block}"
  | mixClosed => "Offline context has already been rendered"
  | missingSample name | unknownEffect name => Text.quoted name
  | misuse m => m.message
  | noMain => "No main block found in script"
  | mixLength seconds => s!"Render duration must be positive, got {seconds}"
  | renderedTwice => "Offline context can only be rendered once"
  | nothingRendered => "No rendered buffer available; call render() first"
  | renderFailed cause => s!"Render failed: {cause.message}"
  | foreign _ text => text
  | monoChannel index => s!"Mono buffer has no channel {index}"
  | channelIndex => "index is out of bounds"
  | noChannelAxis => "axis 1 is out of bounds for array of dimension 1"
  | sampleShape name => s!"Sample '{name}' must be mono or stereo"
  | audioShape => "Audio must be a 1-D or (frames, channels) array"
  | channelCount count => s!"Only mono or stereo audio is supported, got {count} channels"
  | sampleUnreadable path => s!"Failed to load sample: {path}"
  | fieldRange => "argument out of range"
  | rateConversion => "up and down must be >= 1"
  | noBackend =>
    "Playback requires sounddevice or simpleaudio. Install one of them (or export a WAV file instead)."
  | missingFile path => s!"[Errno 2] No such file or directory: {Text.quoted path}"
  | isFolder path => s!"[Errno 21] Is a directory: {Text.quoted path}"
  | notFolder path => s!"[Errno 20] Not a directory: {Text.quoted path}"
  | fileInTheWay path => s!"[Errno 17] File exists: {Text.quoted path}"
  | undecodable reason => s!"'utf-8' codec can't decode {reason}"

/-- Whether the engine could not be set up for what was asked of it. No run goes on after
such a fault. -/
def isSetup (f : Fault) : Bool := f.kind == "EngineSetupError"

/-- The kinds of fault that a render passes on as they are. -/
def renderKinds : List String := ["EngineSetupError", "ScriptError", "RenderError"]

/-- The other kinds of fault that count as a failed render. -/
def failureKinds : List String :=
  ["CommandError", "PlaybackError", "InvalidAudioError", "ValueError", "RuntimeError", "RecursionError",
    "OverflowError", "MemoryError", "AxisError", "UnicodeDecodeError"]

/-- A fault as a render passes it on. -/
def inRender (f : Fault) : Fault :=
  if renderKinds.contains f.kind then f
  else if failureKinds.contains f.kind then .renderFailed f
  else f

end Fault

namespace Scalar

variable {α : Type} [Scalar α]

def toInt (x : α) : Except Fault Int := (truncate x).mapError Fault.ofNotFinite

def toNearest (x : α) : Except Fault Int := (nearest x).mapError Fault.ofNotFinite

def toCeil (x : α) : Except Fault Int := (ceil x).mapError Fault.ofNotFinite

/-- An integer as a number, unless it lies beyond all of them. -/
def ofInt? (n : Int) : Except Fault α :=
  let x : α := ofInt n
  if isFinite x then .ok x else .error .integerTooLarge

end Scalar

end Partita
