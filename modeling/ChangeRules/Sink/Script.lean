import ChangeRules.Sink.Network
import ChangeRules.Text.Find

/-!
# Scripted sinks

Sinks that follow a script: a row of replies, each meant for a part of an address. A request takes
the first reply that is meant for it out of the script.

* `Script.take`: a request takes its reply.
* `Script.sinks`: sinks that follow a script.
-/

namespace ChangeRules

/-- A reply in a script, and the part of an address that it is meant for. -/
structure Scripted where
  part : String
  reply : Reply

/-- Replies in the order in which they are to be taken. -/
abbrev Script := List Scripted

namespace Script

/-- Without a script, everything succeeds. -/
def unscripted : Reply := ⟨.zero, .answered ⟨200, "\x7b\"id\":\"auto\",\"affected\":1\x7d"⟩⟩

/-- The reply to a request, and what is left of the script. -/
def take (r : Request) : Script → Reply × Script
  | [] => (unscripted, [])
  | e :: es =>
    if Text.contains r.address e.part then (e.reply, es)
    else
      let (reply, rest) := take r es
      (reply, e :: rest)

/-- What is left of a script behind requests. -/
def after (s : Script) (sent : List Request) : Script := sent.foldl (fun s r => (s.take r).2) s

/-- Sinks that follow a script. -/
def sinks (s : Script) (sent : List Request) (r : Request) : Reply := ((s.after sent).take r).1

end Script

end ChangeRules
