/-!
# Splitting texts

Pieces between separators, empty ones included, and pieces of a fixed length.
-/

namespace Ensemble.Text

/-- Cuts at every occurrence of a separator that is not empty. `piece` is the piece being read, in
reverse, and the first `skip` characters belong to a separator that has been found. -/
def splitChars (sep : List Char) : (skip : Nat) → (piece : List Char) → List Char → List String
  | _, piece, [] => [String.ofList piece.reverse]
  | skip + 1, piece, _ :: rest => splitChars sep skip piece rest
  | 0, piece, c :: rest =>
    if sep.isPrefixOf (c :: rest) then
      String.ofList piece.reverse :: splitChars sep (sep.length - 1) [] rest
    else splitChars sep 0 (c :: piece) rest

/-- The pieces of a text between occurrences of a separator. The empty separator occurs before and
behind every character. -/
def splitAt (sep : String) (s : String) : List String :=
  if sep.isEmpty then "" :: s.toList.map String.singleton ++ [""]
  else splitChars sep.toList 0 [] s.toList

/-- Pieces of `size` elements, the last one perhaps shorter; `room` elements fit into the piece
being read, which stands in reverse. -/
def chunkChars (size : Nat) : (room : Nat) → (piece : List Char) → List Char → List String
  | _, piece, [] => if piece.isEmpty then [] else [String.ofList piece.reverse]
  | 0, piece, c :: rest =>
    String.ofList piece.reverse :: chunkChars size (size - 1) [c] rest
  | room + 1, piece, c :: rest => chunkChars size room (c :: piece) rest

/-- The pieces of a text of `size` characters each, the last one perhaps shorter. -/
def chunksOf (size : Nat) (s : String) : List String := chunkChars size size [] s.toList

/-- Whether a text occurs in another. -/
def contains (part : List Char) : List Char → Bool
  | [] => part.isEmpty
  | c :: rest => part.isPrefixOf (c :: rest) || contains part rest

end Ensemble.Text
