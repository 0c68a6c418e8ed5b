import Conceal.Json.Printer

/-!
The grammars that come with the library, and the list of the languages they are for, as files of one
directory.
-/

namespace Conceal.Packaged

/-- The list of grammars: for each language its scope name and its file. -/
def manifest : Json :=
  .obj [
    ("grammars", .arr [
      .obj [
        ("language", .str "python"),
        ("scopeName", .str "source.python"),
        ("path", .str "./python.tmLanguage.json")],
      .obj [
        ("language", .str "javascript"),
        ("scopeName", .str "source.js"),
        ("path", .str "./javascript.tmLanguage.json")],
      .obj [
        ("language", .str "javascriptreact"),
        ("scopeName", .str "source.js"),
        ("path", .str "./javascript.tmLanguage.json")]])]

/-- A grammar for scripts in the manner of C. -/
def curlyScript : Json :=
  .obj [
    ("name", .str "JavaScript"),
    ("scopeName", .str "source.js"),
    ("patterns", .arr [
      .obj [("include", .str "#comment")],
      .obj [("include", .str "#string")],
      .obj [("include", .str "#keyword")],
      .obj [("include", .str "#operator")],
      .obj [("include", .str "#number")]]),
    ("repository", .obj [
      ("comment", .obj [
        ("patterns", .arr [
          .obj [
            ("name", .str "comment.block.js"),
            ("begin", .str "/\\*"),
            ("beginCaptures", .obj [("0", .obj [("name", .str "punctuation.definition.comment.begin.js")])]),
            ("end", .str "\\*/"),
            ("endCaptures", .obj [("0", .obj [("name", .str "punctuation.definition.comment.end.js")])])],
          .obj [
            ("name", .str "comment.line.double-slash.js"),
            ("begin", .str "//"),
            ("end", .str "$")]])]),
      ("string", .obj [
        ("patterns", .arr [
          .obj [
            ("name", .str "string.quoted.double.js"),
            ("begin", .str "\""),
            ("end", .str "\"|$"),
            ("patterns", .arr [.obj [("include", .str "#escape")]])],
          .obj [
            ("name", .str "string.quoted.single.js"),
            ("begin", .str "'"),
            ("end", .str "'|$"),
            ("patterns", .arr [.obj [("include", .str "#escape")]])],
          .obj [
            ("name", .str "string.template.js"),
            ("begin", .str "`"),
            ("end", .str "`"),
            ("patterns", .arr [
              .obj [("include", .str "#escape")],
              .obj [
                ("name", .str "meta.template.expression.js"),
                ("begin", .str "\\$\\\x7b"),
                ("end", .str "\\\x7d"),
                ("patterns", .arr [.obj [("include", .str "$self")]])]])]])]),
      ("escape", .obj [("name", .str "constant.character.escape.js"), ("match", .str "\\\\.")]),
      ("keyword", .obj [
        ("patterns", .arr [
          .obj [
            ("name", .str "storage.type.js"),
            ("match", .str "\\b(?:const|let|var)\\b")],
          .obj [
            ("name", .str "storage.type.function.js"),
            ("match", .str "\\bfunction\\b")],
          .obj [
            ("name", .str "keyword.control.js"),
            ("match", .str "\\b(?:if|else|for|while|do|return|break|continue|switch|case|default|throw|try|catch|finally|new|of|in)\\b")],
          .obj [
            ("name", .str "constant.language.js"),
            ("match", .str "\\b(?:true|false|null|undefined)\\b")]])]),
      ("operator", .obj [
        ("patterns", .arr [
          .obj [("name", .str "storage.type.function.arrow.js"), ("match", .str "=>")],
          .obj [
            ("name", .str "keyword.operator.comparison.js"),
            ("match", .str "===|!==|==|!=|<=|>=|<|>")],
          .obj [
            ("name", .str "keyword.operator.logical.js"),
            ("match", .str "&&|\\|\\||!")],
          .obj [("name", .str "keyword.operator.assignment.js"), ("match", .str "=")],
          .obj [
            ("name", .str "keyword.operator.arithmetic.js"),
            ("match", .str "\\+\\+|--|[-+*/%]")]])]),
      ("number", .obj [
        ("name", .str "constant.numeric.js"),
        ("match", .str "\\b\\d+(?:\\.\\d+)?\\b")])])]

/-- A grammar for scripts whose blocks are indented. -/
def indentedScript : Json :=
  .obj [
    ("name", .str "Python"),
    ("scopeName", .str "source.python"),
    ("patterns", .arr [
      .obj [("include", .str "#comment")],
      .obj [("include", .str "#docstring")],
      .obj [("include", .str "#string")],
      .obj [("include", .str "#function-definition")],
      .obj [("include", .str "#keyword")],
      .obj [("include", .str "#operator")],
      .obj [("include", .str "#number")]]),
    ("repository", .obj [
      ("comment", .obj [
        ("name", .str "comment.line.number-sign.python"),
        ("begin", .str "#"),
        ("beginCaptures", .obj [("0", .obj [("name", .str "punctuation.definition.comment.python")])]),
        ("end", .str "$")]),
      ("docstring", .obj [
        ("name", .str "string.quoted.docstring.multi.python"),
        ("begin", .str "(?:[rRuU]?)(\"\"\"|''')"),
        ("beginCaptures", .obj [("0", .obj [("name", .str "punctuation.definition.string.begin.python")])]),
        ("end", .str "\\1"),
        ("endCaptures", .obj [("0", .obj [("name", .str "punctuation.definition.string.end.python")])]),
        ("patterns", .arr [.obj [("include", .str "#escape")]])]),
      ("string", .obj [
        ("patterns", .arr [
          .obj [
            ("name", .str "string.quoted.double.python"),
            ("begin", .str "(?:[rRbBuUfF]\x7b0,2\x7d)\""),
            ("end", .str "\"|$"),
            ("patterns", .arr [.obj [("include", .str "#escape")]])],
          .obj [
            ("name", .str "string.quoted.single.python"),
            ("begin", .str "(?:[rRbBuUfF]\x7b0,2\x7d)'"),
            ("end", .str "'|$"),
            ("patterns", .arr [.obj [("include", .str "#escape")]])]])]),
      ("escape", .obj [("name", .str "constant.character.escape.python"), ("match", .str "\\\\.")]),
      ("function-definition", .obj [
        ("name", .str "meta.function.python"),
        ("begin", .str "\\b(?:(async)\\s+)?(def)\\s+([A-Za-z_]\\w*)"),
        ("beginCaptures", .obj [
          ("1", .obj [("name", .str "storage.type.function.async.python")]),
          ("2", .obj [("name", .str "storage.type.function.python")]),
          ("3", .obj [("name", .str "entity.name.function.python")])]),
        ("end", .str ":"),
        ("endCaptures", .obj [("0", .obj [("name", .str "punctuation.section.function.begin.python")])]),
        ("patterns", .arr [
          .obj [
            ("name", .str "punctuation.separator.annotation.result.python"),
            ("match", .str "->")],
          .obj [("include", .str "$self")]])]),
      ("keyword", .obj [
        ("patterns", .arr [
          .obj [
            ("name", .str "storage.type.function.lambda.python"),
            ("match", .str "\\blambda\\b")],
          .obj [
            ("name", .str "storage.type.class.python"),
            ("match", .str "\\bclass\\b")],
          .obj [
            ("name", .str "keyword.operator.logical.python"),
            ("match", .str "\\b(?:and|or|not|in|is)\\b")],
          .obj [
            ("name", .str "keyword.control.import.python"),
            ("match", .str "\\b(?:import|from|as)\\b")],
          .obj [
            ("name", .str "keyword.control.flow.python"),
            ("match", .str "\\b(?:if|elif|else|for|while|break|continue|return|yield|await|try|except|finally|raise|with|pass|match|case)\\b")],
          .obj [
            ("name", .str "constant.language.python"),
            ("match", .str "\\b(?:True|False|None)\\b")]])]),
      ("operator", .obj [
        ("patterns", .arr [
          .obj [
            ("name", .str "punctuation.separator.annotation.result.python"),
            ("match", .str "->")],
          .obj [
            ("name", .str "keyword.operator.comparison.python"),
            ("match", .str "==|!=|<=|>=|<|>")],
          .obj [
            ("name", .str "keyword.operator.assignment.python"),
            ("match", .str ":=|\\+=|-=|\\*=|/=|%=|=")],
          .obj [
            ("name", .str "keyword.operator.arithmetic.python"),
            ("match", .str "\\*\\*|//|[-+*/%@]")]])]),
      ("number", .obj [
        ("name", .str "constant.numeric.python"),
        ("match", .str "\\b(?:0[xX][0-9a-fA-F_]+|\\d[\\d_]*(?:\\.\\d[\\d_]*)?(?:[eE][+-]?\\d+)?)\\b")])])]

/-- The name of the list of grammars. -/
def manifestName : String := "contributions.json"

/-- The names of the files and what they hold. -/
def files : List (String × Json) :=
  [("python.tmLanguage.json", indentedScript), ("javascript.tmLanguage.json", curlyScript),
    (manifestName, manifest)]

/-- The grammar of a scope name. -/
def grammar? (scopeName : String) : Option Json :=
  [indentedScript, curlyScript].find? fun
    | .obj members => (Json.Members.get members "scopeName").same (.str scopeName)
    | _ => false

end Conceal.Packaged
