import Neroshop.Routing.NodeId
import Neroshop.Rpc.Message

/-!
# Queries as bytes

The wire form of a query: each member is a tag, a length and its bytes, an
empty string is left out, and every entry of the arguments is a message of its
own.  The parser knows the queries it is given, which is all that runs on fixed
queries need.
-/

namespace Neroshop.Rpc

open Neroshop.Routing

/-- Seven bits a byte, the lowest first, in at most `fuel` bytes. -/
def varint : (fuel n : Nat) → List UInt8
  | 0, _ => []
  | fuel + 1, n =>
      if n < 128 then [UInt8.ofNat n]
      else UInt8.ofNat (n % 128 + 128) :: varint fuel (n / 128)

def lengthDelimited (field : Nat) (bytes : List UInt8) : List UInt8 :=
  UInt8.ofNat (field * 8 + 2) :: (varint 10 bytes.length ++ bytes)

def stringField (field : Nat) (text : String) : List UInt8 :=
  if text = "" then [] else lengthDelimited field (chars text)

def entryField (field : Nat) (entry : String × String) : List UInt8 :=
  lengthDelimited field
    (lengthDelimited 1 (chars entry.1) ++ lengthDelimited 2 (chars entry.2))

/-- A query with its arguments in the order in which they are written. -/
structure WireQuery where
  version : String
  query : String
  args : List (String × String)
  tid : String

namespace WireQuery

def toQuery (sent : WireQuery) : Query where
  version := sent.version
  query := sent.query
  args := sent.args.foldl (fun args (name, value) => args.insert name value) ∅
  tid := sent.tid

def bytes (sent : WireQuery) : List UInt8 :=
  lengthDelimited 1 (stringField 1 sent.version ++ stringField 2 sent.query ++
    sent.args.flatMap (entryField 3) ++ stringField 4 sent.tid)

/-- The parser of the bytes of these queries. -/
def parser (queries : List WireQuery) (bytes : List UInt8) :
    Option DhtMessage :=
  (queries.find? fun sent => sent.bytes = bytes).map fun sent =>
    .query sent.toQuery

theorem parser_bytes_head (sent : WireQuery) (queries : List WireQuery) :
    parser (sent :: queries) sent.bytes = some (.query sent.toQuery) := by
  simp [parser]

example : (WireQuery.mk "1.0" "ping" [] "a1b2").bytes =
    [10, 17, 10, 3, 49, 46, 48, 18, 4, 112, 105, 110, 103, 34, 4, 97, 49, 98,
      50] := by
  decide

end WireQuery

end Neroshop.Rpc
