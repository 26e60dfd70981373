/-!
Diagnostic dumps. A dump is a sequence of records; it is read either as one text or as chunks
of bounded size, the shape in which a transport with fixed-size messages ships it.
-/

namespace SensorHub.Dump

def text (records : List String) : String :=
  String.join records

/-- Records packed into chunks. A chunk grows past `limit` bytes only when a single record is
longer than that. -/
structure Chunks where
  limit : Nat
  /-- The chunk still open comes first. -/
  newestFirst : List String
  deriving Repr, DecidableEq

namespace Chunks

/-- No chunk yet. A limit of zero counts as one byte. -/
def empty (limit : Nat) : Chunks :=
  ⟨max limit 1, []⟩

/-- Adds a record: to the open chunk if it fits there, else to a new one. Empty records leave
no trace. -/
def print (c : Chunks) (record : String) : Chunks :=
  if record.isEmpty then c
  else
    match c.newestFirst with
    | [] => { c with newestFirst := [record] }
    | last :: older =>
      if last.utf8ByteSize + record.utf8ByteSize ≤ c.limit then
        { c with newestFirst := (last ++ record) :: older }
      else
        { c with newestFirst := record :: last :: older }

/-- The chunks, oldest first. -/
def toList (c : Chunks) : List String :=
  c.newestFirst.reverse

def size (c : Chunks) : Nat :=
  c.newestFirst.length

end Chunks

def chunks (limit : Nat) (records : List String) : Chunks :=
  records.foldl Chunks.print (Chunks.empty limit)

end SensorHub.Dump
