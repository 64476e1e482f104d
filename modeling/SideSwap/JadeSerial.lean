import Mathlib.Data.List.Induction
import SideSwap.Framing

/-! # The serial port of a Jade

    `sideswap_jade/src/reader.rs` and the thread of `serial.rs` that reads the
    port: CBOR messages come as a stream of bytes, which the port cuts into
    chunks anywhere.  Each chunk is appended to a buffer, and as many messages
    as there are are decoded from it.

    `ciborium` is given by `Ciborium`: a decoder that sees the buffer through
    `read_exact` only. -/

namespace Jade

open Framing

/-! ## The buffer -/

/-- `BufReader`: the bytes that were received, and how many of them have been
    read. -/
structure BufReader where
  data : List UInt8 := []
  pos : Nat := 0
deriving DecidableEq, Repr

namespace BufReader

/-- `read_exact`. -/
def readExact (n : Nat) (reader : BufReader) : Except String (List UInt8) × BufReader :=
  if reader.pos + n ≤ reader.data.length then
    (.ok ((reader.data.drop reader.pos).take n), { reader with pos := reader.pos + n })
  else (.error "Condition failed: `buf.pos + data.len() <= buf.data.len()`", reader)

def resetPos (reader : BufReader) : BufReader := { reader with pos := 0 }

def removeRead (reader : BufReader) : List UInt8 × BufReader :=
  (reader.data.take reader.pos, ⟨reader.data.drop reader.pos, 0⟩)

def appendData (data : List UInt8) (reader : BufReader) : BufReader :=
  { reader with data := reader.data ++ data }

def size (reader : BufReader) : Nat := reader.data.length

end BufReader

/-! ## CBOR -/

/-- `ciborium::value::Value`; a float by its bits. -/
inductive Value where
  | integer (n : Int)
  | bytes (data : List UInt8)
  | float (bits : UInt64)
  | text (s : String)
  | bool (b : Bool)
  | null
  | tag (n : UInt64) (value : Value)
  | array (values : List Value)
  | map (entries : List (Value × Value))

def Value.asMap : Value → Option (List (Value × Value))
  | .map entries => some entries
  | _ => none

def Value.asText : Value → Option String
  | .text s => some s
  | _ => none

/-- Whether a value is a log message: a map with the key `"log"`. -/
def Value.isLog (value : Value) : Bool :=
  (value.asMap.map fun entries => entries.any fun (key, _) => key.asText == some "log").getD false

/-- A decoder: it ends, fails, or reads some bytes and goes on. -/
inductive Decoder (α : Type) where
  | done (a : α)
  | fail (error : String)
  | read (n : Nat) (next : List UInt8 → Decoder α)

/-- A decoder at work: `from_reader`. -/
def Decoder.run {α : Type} : Decoder α → BufReader → Except String α × BufReader
  | .done a, reader => (.ok a, reader)
  | .fail error, reader => (.error error, reader)
  | .read n next, reader =>
      match reader.readExact n with
      | (.ok bytes, reader) => (next bytes).run reader
      | (.error error, reader) => (.error error, reader)

/-- `ciborium`: what encodes which value, and a decoder that reads exactly an
    encoding, whatever follows it, and fails on a part of one. -/
structure Ciborium where
  decoder : Decoder Value
  Encodes : Value → List UInt8 → Prop
  consumes : ∀ {value bytes}, Encodes value bytes → ∀ rest,
    decoder.run ⟨bytes ++ rest, 0⟩ = (.ok value, ⟨bytes ++ rest, bytes.length⟩)
  incomplete : ∀ {value bytes}, Encodes value bytes → ∀ {part}, part <+: bytes → part ≠ bytes →
    ∃ error, (decoder.run ⟨part, 0⟩).1 = .error error
  null : Encodes .null [0xf6]

/-- A message of the device. -/
structure Message (codec : Ciborium) where
  value : Value
  bytes : List UInt8
  encodes : codec.Encodes value bytes

/-! ## The thread -/

/-- What the port returns when it is read. -/
inductive PortRead where
  | bytes (data : List UInt8)
  | timedOut
  | failed (error : String)

/-- What the callback is called with. -/
inductive FromPort where
  | data (data : List UInt8)
  | fatalError (error : String)

/-- The loop over the buffer.  An iteration that reads nothing would be repeated
    for ever, so that the fuel of `decodeAll` lasts for every loop that ends. -/
def decodeLoop (decoder : Decoder Value) : Nat → BufReader → Option (List FromPort × BufReader)
  | 0, _ => none
  | fuel + 1, reader =>
      match decoder.run reader.resetPos with
      | (.ok value, reader) =>
          let (data, reader) := reader.removeRead
          let calls := if value.isLog then [] else [.data data]
          if reader.size = 0 then some (calls, reader)
          else (decodeLoop decoder fuel reader).map fun (calls', reader) => (calls ++ calls', reader)
      | (.error _, reader) => some ([], reader)

def decodeAll (decoder : Decoder Value) (reader : BufReader) :
    Option (List FromPort × BufReader) :=
  decodeLoop decoder (reader.data.length + 1) reader

/-- What the thread is doing; it hangs if the loop over the buffer does not end. -/
inductive Phase where
  | discarding
  | reading
  | stopped
  | hung
deriving DecidableEq, Repr

/-- The thread, with all it was given and has done. -/
structure Thread where
  phase : Phase := .discarding
  reader : BufReader := {}
  callbacks : List FromPort := []
  written : List (List UInt8) := []
  /-- the bytes that were read, less those that were discarded -/
  received : List UInt8 := []

/-- One round of the thread: the messages that are waiting to be sent, each with
    the error of writing it if there is one, whether the sender is gone, and
    what the port returns. -/
structure Round where
  waiting : List (List UInt8 × Option String)
  senderGone : Bool
  read : PortRead

namespace Thread

def fatal (error : String) (thread : Thread) : Thread :=
  { thread with phase := .stopped, callbacks := thread.callbacks ++ [.fatalError error] }

/-- The messages that are waiting are written. -/
def send : List (List UInt8 × Option String) → Thread → Thread
  | [], thread => thread
  | (_, some error) :: _, thread => thread.fatal error
  | (message, none) :: waiting, thread =>
      send waiting { thread with written := thread.written ++ [message] }

/-- A chunk is appended to the buffer, which is then decoded. -/
def receive (decoder : Decoder Value) (data : List UInt8) (thread : Thread) : Thread :=
  let thread := { thread with
    reader := thread.reader.appendData data
    received := thread.received ++ data }
  match decodeAll decoder thread.reader with
  | some (calls, reader) => { thread with reader, callbacks := thread.callbacks ++ calls }
  | none => { thread with phase := .hung }

def read (decoder : Decoder Value) (result : PortRead) (thread : Thread) : Thread :=
  match result with
  | .bytes data => thread.receive decoder data
  | .timedOut => thread
  | .failed error => thread.fatal error

/-- A round: old data is discarded until the port has no more. -/
def round (decoder : Decoder Value) (thread : Thread) (r : Round) : Thread :=
  match thread.phase with
  | .discarding =>
      match r.read with
      | .bytes _ => thread
      | .timedOut => { thread with phase := .reading }
      | .failed error => thread.fatal error
  | .reading =>
      let thread := thread.send r.waiting
      if thread.phase = .stopped then thread
      else if r.senderGone then { thread with phase := .stopped }
      else thread.read decoder r.read
  | _ => thread

def run (decoder : Decoder Value) (rounds : List Round) : Thread :=
  rounds.foldl (round decoder) {}

/-- The messages that were handed on. -/
def delivered (thread : Thread) : List (List UInt8) :=
  thread.callbacks.filterMap fun
    | .data data => some data
    | .fatalError _ => none

end Thread

/-! ## Decoding the buffer -/

section

variable {codec : Ciborium}

/-- What is handed on of some messages. -/
def calls (messages : List (Message codec)) : List FromPort :=
  (messages.filter fun message => !message.value.isLog).map fun message => .data message.bytes

/-- What framing depends on. -/
structure SameReading (thread thread' : Thread) : Prop where
  reader : thread'.reader = thread.reader
  received : thread'.received = thread.received
  delivered : thread'.delivered = thread.delivered
  runs : thread.phase ≠ .hung → thread'.phase ≠ .hung

theorem SameReading.refl (thread : Thread) : SameReading thread thread :=
  ⟨rfl, rfl, rfl, id⟩

end

/-! ## Two messages -/

end Jade
