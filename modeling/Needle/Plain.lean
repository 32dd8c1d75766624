import Needle.Error

/-!
# Arguments without NUL

The engine takes texts and paths that end at their first NUL byte, so a NUL inside is refused before
the engine is called. The functions return the bytes that the engine gets.
-/
set_option autoImplicit false

namespace Needle.Plain

def text (value what : String) : Except Error Bytes :=
  if value.toList.contains '\x00' then .error (.invalidArgument (what ++ " contains a NUL byte"))
  else .ok (Utf8.encode value)

def namespaceName (value : String) : Except Error Bytes :=
  if value.isEmpty then .error (.invalidArgument "namespace must not be empty")
  else text value "namespace"

def path (value : Path) : Except Error Bytes :=
  if value.hasNul then
    .error (.invalidArgument ("path contains a NUL byte: " ++ value.display))
  else .ok value.bytes

end Needle.Plain
