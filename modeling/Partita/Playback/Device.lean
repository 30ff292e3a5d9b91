import Partita.Playback

/-! The devices a playback can go to. One takes samples as they are; the other
takes integers of sixteen bits and hands out a play for every buffer. -/
namespace Partita

variable {α : Type} [Scalar α]

inductive Device where
  | streaming
  | buffered
  deriving DecidableEq, Repr

namespace Device

def name : Device → String
  | streaming => "sounddevice"
  | buffered => "simpleaudio"

/-- The devices in order of preference. -/
def all : List Device := [streaming, buffered]

def choose (present : List String) : Except Fault Device :=
  match all.find? fun d => present.contains d.name with
  | some d => .ok d
  | none => .error .noBackend

end Device

inductive Order (α : Type) where
  | play (audio : Audio α) (rate : Int)
  | halt
  | finish
  | playIntegers (samples : Audio Int) (channels : Nat) (rate : Int)
  | haltPlay (play : Nat)
  | finishPlay (play : Nat)

/-- A sample as an integer of sixteen bits, computed in single precision. -/
def integerSample (x : α) : Int :=
  (Scalar.toInt (Scalar.toSingle (Scalar.clamp (-1) 1 x * 32767))).toOption.getD 0

/-- The orders a call comes to when a number of plays have been handed out; only
the last one is still in hand. -/
def Device.orders (d : Device) (plays : Nat) : DeviceCall α → List (Order α)
  | .start audio rate =>
    match d with
    | .streaming => [.play audio rate]
    | .buffered => [.playIntegers (audio.map integerSample) audio.channelCount rate]
  | .stop =>
    match d with
    | .streaming => [.halt]
    | .buffered => if plays == 0 then [] else [.haltPlay (plays - 1)]
  | .wait =>
    match d with
    | .streaming => [.finish]
    | .buffered => if plays == 0 then [] else [.finishPlay (plays - 1)]

end Partita
