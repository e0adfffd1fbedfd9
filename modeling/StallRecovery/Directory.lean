import StallRecovery.Program

/-!
# Directories in memory

A directory given by its files, each under its path, as a way to read files. It is the working
directory of a small system: below the root are the usual places and a null device, which reads as
an empty file, and the directory itself lies among the temporary files, under a name that no path
can spell. So a path may lead out of it, but to nothing else that could be read.

A path is followed part by part. A part that is a file has to be the last, and a path that ends at
a directory is none of a file.
-/

namespace StallRecovery

/-- Files under their paths. -/
structure Directory where
  files : List (String × ByteArray)

namespace Directory

/-- The parts that lead from the root to a place. -/
abbrev Place := List (List Char)

/-- Splits a path at its slashes. -/
def partsOf (path : List Char) : List (List Char) :=
  match path with
  | [] => [[]]
  | '/' :: rest => [] :: partsOf rest
  | c :: rest =>
    match partsOf rest with
    | [] => [[c]]
    | part :: parts => (c :: part) :: parts

/-- Whether a part stays where it is: nothing between two slashes, or a dot. -/
def stays (part : List Char) : Bool := part.isEmpty || part == ['.']

/-- Where the directory lies. No part of a path holds a slash, so no path spells its name. -/
def home : Place := ["tmp".toList, ['/']]

/-- Where the null device lies. -/
def nullDevice : Place := ["dev".toList, "null".toList]

/-- The usual places below the root. -/
def usualPlaces : List Place :=
  ["bin", "boot", "dev", "etc", "home", "lib", "lib64", "media", "mnt", "opt", "proc", "root",
    "run", "sbin", "srv", "sys", "tmp", "usr", "var"].map fun name => [name.toList]

/-- Where a file of the directory lies. -/
def placeOf (path : String) : Place := home ++ (partsOf path.toList).filter (!stays ·)

/-- Everything that can be read, with its place. -/
def contents (d : Directory) : List (Place × ByteArray) :=
  (nullDevice, ByteArray.empty) :: d.files.map fun (path, bytes) => (placeOf path, bytes)

/-- The file at a place. -/
def fileAt? (d : Directory) (place : Place) : Option ByteArray :=
  (d.contents.find? (·.1 == place)).map (·.2)

/-- Whether a place is a directory: a usual one, the working one, or one on the way to either or
to a file. -/
def isDirectory (d : Directory) (place : Place) : Bool :=
  (home :: usualPlaces).any (place.isPrefixOf ·)
    || d.contents.any fun f => place != f.1 && place.isPrefixOf f.1

/-- Follows the parts of a path from a directory. The root lies above itself. -/
def follow (d : Directory) (place : Place) : List (List Char) → Except Unreadable ByteArray
  | [] => .error .isDirectory
  | part :: rest =>
    if stays part then d.follow place rest
    else if part == ['.', '.'] then d.follow place.dropLast rest
    else if 255 < (String.ofList part).utf8ByteSize then .error .nameTooLong
    else
      let place := place ++ [part]
      match d.fileAt? place with
      | some bytes => if rest.isEmpty then .ok bytes else .error .notDirectory
      | none => if d.isDirectory place then d.follow place rest else .error .notFound

/-- Reads a file. A path that starts with a slash starts at the root. -/
def read (d : Directory) : FileReader := fun path =>
  if path.toList.any (·.toNat == 0) then .error .zeroInName
  else if path == "" then .error .notFound
  else if 4096 ≤ path.utf8ByteSize then .error .nameTooLong
  else d.follow (if path.toList.head? == some '/' then [] else home) (partsOf path.toList)

end Directory

end StallRecovery
