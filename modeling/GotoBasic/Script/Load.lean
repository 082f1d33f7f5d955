/-
  Loading scripts.

  * `Script.decode`: the text in the bytes of a file, UTF-8 being the
    platform's encoding; `Script.ofBytes` is the same for the file at a path;
  * `Script.load`: the text of the file at a path, or why it cannot be loaded.
-/
import GotoBasic.Failure
import GotoBasic.Script.Files
import GotoBasic.Text.LineBreak
import GotoBasic.Text.Utf8

namespace GotoBasic.Script

/-- The text in the bytes of a script, with unified line breaks.  Scripts are
    read in the encoding that the platform prefers, which is taken to be UTF-8
    here. -/
def decode (bytes : List UInt8) : Except Text.Utf8Fault String :=
  match Text.decode bytes with
  | .ok cs => .ok (String.ofList (Text.unifyBreaks cs))
  | .error fault => .error fault

/-- The text of the script at `path` with the given bytes. -/
def ofBytes (path : String) (bytes : List UInt8) : Except Failure String :=
  match decode bytes with
  | .ok source => .ok source
  | .error fault => .error (.load path fault.message)

/-- The failure to read the file at `path`. -/
def unread (path : String) (fault : FileFault) : Failure :=
  .load path ("[Errno " ++ toString fault.number ++ "] " ++ fault.wording ++ ": " ++
    Text.quoted path)

/-- The text of the script at `path`. -/
def load (fs : Files) (path : String) : Except Failure String :=
  match fs.read path with
  | .ok bytes => ofBytes path bytes
  | .error fault => .error (unread path fault)

end GotoBasic.Script
