import Mathlib.Data.List.Basic

/-! # Messages in a stream

    Messages are written one after another, with nothing between them, and read
    in pieces that need not end where a message ends.  What has been read is
    then a number of whole messages and the beginning of the next one. -/

namespace Framing

variable {β μ : Type} (bytes : μ → List β)

/-- The bytes of some messages. -/
def stream (messages : List μ) : List β := messages.flatMap bytes

@[simp] theorem stream_nil : stream bytes [] = [] := rfl

variable {bytes}

end Framing
