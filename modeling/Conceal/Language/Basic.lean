import Conceal.File.Path
import Conceal.Json.Text

/-!
The language of a file, by the name or the suffix of its path.
-/

namespace Conceal.Language

/-- Languages by the suffix of a file's name. -/
def bySuffix : List (String × String) :=
  [(".py", "python"), (".pyw", "python"), (".pyi", "python"), (".rs", "rust"), (".c", "c"),
    (".h", "c"), (".cpp", "cpp"), (".hpp", "cpp"), (".cc", "cpp"), (".js", "javascript"),
    (".mjs", "javascript"), (".cjs", "javascript"), (".jsx", "javascriptreact"),
    (".ts", "typescript"), (".tsx", "typescriptreact"), (".json", "json"), (".html", "html"),
    (".css", "css"), (".sh", "shell"), (".bash", "shell"), (".md", "markdown")]

/-- Languages by a file's whole name. -/
def byName : List (String × String) :=
  [("makefile", "make"), (".bashrc", "shell"), (".zshrc", "shell")]

/-- The language of files about which nothing is known. -/
def plain : String := "plaintext"

/-- A language's name in its usual form: trimmed and in lower case. -/
def normalize (s : String) : String := Text.lower (Text.trim s)

/-- The language to fall back on, given as any value. -/
def fallback (value : Json) : String :=
  let s := normalize (value.orElse (.str plain)).text
  if s = "" then plain else s

/-- The language of a file, if its name tells. -/
def ofName? (p : Path) : Option String :=
  match byName.lookup (Text.lower p.name) with
  | some language => some language
  | none => bySuffix.lookup (Text.lower p.suffix)

/-- The language of a file whose path is given as any value. -/
def ofPathValue (path : Json) (default : Json := .str plain) : String :=
  let text := Text.trim (path.orElse (.str "")).text
  if text = "" then fallback default else (ofName? (Path.ofString text)).getD (fallback default)

/-- The language of a file, or of a document without one. -/
def ofPath (path : Option String) : String := ofPathValue ((path.map Json.str).getD .null)

end Conceal.Language
