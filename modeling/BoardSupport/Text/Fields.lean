/-!
# Key and Value Fields

Taking apart a line of fields such as `OFFSET=0&WIDTH=0000000000000008`.

A line is cut at every separator, and each piece is cut once, at its first
equals sign. A piece without an equals sign is no field and is passed over,
so `PATH` or an empty piece between two separators does no harm.

## Main definitions

* `Text.split`: The pieces of a line between separators.
* `Text.cut?`: A piece divided at the first occurrence of a mark.
* `Text.fields`: The key and value pairs of a line.
-/

namespace BoardSupport

namespace Text

/-- The pieces between occurrences of `separator`. There is always one more
    piece than there are separators, so the empty line is one empty piece. -/
def split (separator : Char) : List Char → List (List Char)
  | [] => [[]]
  | c :: rest =>
    if c = separator then
      [] :: split separator rest
    else
      match split separator rest with
      | [] => [[c]]
      | piece :: pieces => (c :: piece) :: pieces

/-- What stands before and after the first `mark`, if there is one. -/
def cut? (mark : Char) : List Char → Option (List Char × List Char)
  | [] => none
  | c :: rest =>
    if c = mark then
      some ([], rest)
    else
      (cut? mark rest).map fun (before, after) => (c :: before, after)

/-- One field: what is named, and the value given to it. -/
structure Field where
  key : List Char
  value : List Char
  deriving DecidableEq, Repr

/-- The fields of a request, in the order they are written. -/
def fields (request : String) : List Field :=
  (split '&' request.toList).filterMap fun piece =>
    (cut? '=' piece).map fun (key, value) => ⟨key, value⟩

end Text

end BoardSupport
