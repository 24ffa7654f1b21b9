import LetDX.LetDB.Storage.Bounds

/-! # Which files replay in the order of their ids

Appending compares the id of an entry with the number of entries so far. Replay
does not, so it takes the records as they come: a file from which a whole record
was lost, or in which one was doubled or moved, is replayed like any other.
-/

namespace LetDX.LetDB

open Bytes Durable Effects Machine

variable {truncateOnFailure : Bool} {content : List U8}

end LetDX.LetDB
