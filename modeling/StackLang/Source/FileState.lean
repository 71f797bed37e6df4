import StackLang.Source.Path

-- What a path leads to when a file is opened.

namespace StackLang

inductive FileState where
  | regular (bytes : List UInt8)
  | missing
  | directory
  | underFile
  | symlinkLoop
  -- For any other reason.
  | refused (reason : String)

namespace FileState

-- The bytes of the file, or why it cannot be opened. A path that leads nowhere
-- may be impossible as a path, or lead to the directory itself.
def read (state : FileState) (path : Path) : Except String (List UInt8) :=
  match state with
  | .regular bytes => .ok bytes
  | .missing =>
      .error (if path.tooLong then "File name too long"
        else if path.namesDirectory then "Is a directory"
        else "No such file or directory")
  | .directory => .error "Is a directory"
  | .underFile => .error "Not a directory"
  | .symlinkLoop => .error "Too many levels of symbolic links"
  | .refused reason => .error reason

-- What `path` leads to where `state` is all that is known, and is found at `place`.
def seenAt (state : FileState) (place path : Path) : FileState :=
  if path = place then state
  else match state with
    | .regular _ =>
        if place.above path then .underFile
        else if path.above place then .directory
        else .missing
    | .directory | .refused _ => if path.above place then .directory else .missing
    | .symlinkLoop =>
        if place.above path then .symlinkLoop
        else if path.above place then .directory
        else .missing
    | .missing | .underFile => .missing

end FileState

end StackLang
