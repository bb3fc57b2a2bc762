/-!
# Splitting

Cutting characters apart at separators, and joining parts with a separator.
-/

namespace VaultIndex

/-- The parts between separators; no separator leaves one part. -/
def splitOn (sep : Char) : List Char → List (List Char)
  | [] => [[]]
  | c :: rest =>
    if c = sep then [] :: splitOn sep rest
    else match splitOn sep rest with
      | part :: parts => (c :: part) :: parts
      | [] => [[c]]

/-- The parts with a separator between every two of them. -/
def joinWith (sep : List Char) : List (List Char) → List Char
  | [] => []
  | [part] => part
  | part :: parts => part ++ sep ++ joinWith sep parts

/-- What stands in front of the first separator and, where there is one, what stands behind. -/
def cut (sep : Char) (cs : List Char) : List Char × Option (List Char) :=
  (cs.takeWhile (· ≠ sep), (cs.dropWhile (· ≠ sep)).tail?)

/-- What stands in front of the last separator, where there is one, and what stands behind. -/
def cutLast (sep : Char) (cs : List Char) : Option (List Char) × List Char :=
  let (behind, front?) := cut sep cs.reverse
  (front?.map List.reverse, behind.reverse)

end VaultIndex
