import ZoneRelay.Code.Book
import ZoneRelay.Config.File
import ZoneRelay.Keys.File

/-!
# Files read at the start

Settings, keys and code tables come from files. Nothing here reads a file: what reading it
gives – its bytes, or why it cannot be read – is given from outside
(`ZoneRelay.Contents`), and a file that cannot be read is a fault that names it. A text
file has to be well-formed UTF-8.
-/

namespace ZoneRelay

/-- What reading a file gives: its bytes, or why they cannot be read. -/
abbrev Contents := Except String Bytes

/-- The text of a file. -/
def Contents.text (contents : Contents) : Except String String :=
  contents.bind fun data =>
    match Utf8.decode? data with
    | some text => .ok text
    | none => .error "stream did not contain valid UTF-8"

/-- The path of a file in a directory. -/
def joinPath (directory name : String) : String :=
  if directory.isEmpty then name
  else if directory.endsWith "/" then directory ++ name
  else directory ++ "/" ++ name

namespace Config

/-- The configuration in a file. -/
def ofFile (path : String) (contents : Contents) : Except Fault Config :=
  match contents.text with
  | .error reason => .error (.settings (.unreadableConfig path reason))
  | .ok text => ofText text

/-- The outcome of writing a configuration file, as a fault. -/
def ofWriting (path : String) : Except String Unit → Except Fault Unit
  | .error reason => .error (.settings (.unwritableConfig path reason))
  | .ok _ => .ok ()

end Config

namespace KeyStore

/-- The key store in a file. -/
def ofFile (contents : Contents) : Except Fault KeyStore :=
  match contents.text with
  | .error reason => .error (.settings (.unreadableKeys reason))
  | .ok text => ofText text

end KeyStore

namespace Code

/-- The file of the encode table. -/
def encodeFile : String := "compress.dat"

/-- The file of the decode table. -/
def decodeFile : String := "decompress.dat"

/-- A resource file of a directory. -/
def resource (directory name : String) (contents : Contents) : Except TableFault Bytes :=
  contents.mapError (.unreadable name (joinPath directory name))

/-- The code book of a directory, given the contents of its files. Both have to be there
before either is looked at. -/
def Book.ofFiles (directory : String) (encode decode : Contents) : Except Fault Book :=
  Except.mapError Fault.ofTable do
    let encode ← resource directory encodeFile encode
    let decode ← resource directory decodeFile decode
    Book.ofBytes encode decode

end Code

end ZoneRelay
