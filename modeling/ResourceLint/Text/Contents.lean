/-!
# Contents of files

A file that is missing has no contents, and contents that are not valid UTF-8 are no text.
-/

namespace ResourceLint.Text

def ofContents? (contents : Option ByteArray) : Option String :=
  contents.bind String.fromUTF8?

end ResourceLint.Text
