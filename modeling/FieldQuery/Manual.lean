/-!
# The manual

An overview and one page for each of three categories, as the command line shows them.
-/

set_option autoImplicit false

namespace FieldQuery.Manual

def page (lines : List String) : String := String.join (lines.map fun line => line ++ "\n")

def overview : String := page [
  "HYPEQL DOCUMENTATION",
  "",
  "hypeql asks a data graph for exactly the fields you need. A query is a set of",
  "field names in curly braces; fields that hold lists of objects take their own",
  "nested set.",
  "",
  "DOCUMENTATION CATEGORIES",
  "",
  "  syntax            Selections, separators, nesting and comments",
  "  arguments         Passing integers and strings to list fields",
  "  errors            What fails, and how failures are reported",
  "",
  "QUICK REFERENCE",
  "",
  "  \x7b a, b \x7d          Two scalar fields",
  "  list \x7b a \x7d        A list field and the fields of each element",
  "  list(p: 1) \x7b a \x7d  Arguments for a list field",
  "  # text            Comment until end of line",
  "",
  "Run 'hypeql doc <category>' for detailed documentation."]

def selectionsPage : String := page [
  "SYNTAX",
  "",
  "SELECTIONS",
  "----------",
  "A query is a set of selections between curly braces. Spaces, newlines and",
  "commas all separate selections, so these are the same query:",
  "",
  "  \x7bversion,isBeta,films\x7bname\x7d\x7d",
  "",
  "  \x7b",
  "      version",
  "      isBeta",
  "      films \x7b",
  "          name",
  "      \x7d",
  "  \x7d",
  "",
  "The outer braces may be left out.",
  "",
  "NESTING",
  "-------",
  "A field that holds a list of objects must be followed by a block. The block",
  "is applied to every element of the list and may be empty:",
  "",
  "  films \x7b name, comments \x7b text \x7d \x7d",
  "  films \x7b\x7d",
  "",
  "COMMENTS",
  "--------",
  "'#' starts a comment that runs to the end of the line:",
  "",
  "  \x7b",
  "      version   # the API version",
  "      films \x7b name \x7d",
  "  \x7d",
  "",
  "DUPLICATES",
  "----------",
  "Asking for the same field twice at one level returns it once."]

def argumentsPage : String := page [
  "ARGUMENTS",
  "",
  "List fields accept arguments in parentheses, between the field name and its",
  "block:",
  "",
  "  films(p: 2) \x7b name \x7d",
  "  films(count: 5, sort: \"year\") \x7b name, releaseYear \x7d",
  "",
  "VALUES",
  "------",
  "  42          Integer (bare digits, optional leading '-')",
  "  \"42\"        String (quoted, even when it contains only digits)",
  "  \"a\\\"b\"      Escaped quote",
  "  \"a\\\\b\"      Escaped backslash",
  "  \"line\\nend\" Newline",
  "  \"ab\"\"cd\"    Adjacent quoted parts are joined: \"abcd\"",
  "",
  "RULES",
  "-----",
  "  - An argument list must stay on one line.",
  "  - Each key may appear once.",
  "  - '#' does not start a comment inside parentheses."]

def errorsPage : String := page [
  "ERRORS",
  "",
  "PARSE ERRORS",
  "------------",
  "Reported with the line and column where they were found:",
  "",
  "  - a '\x7b' that is never closed",
  "  - a '(' that is never closed, or a newline before its ')'",
  "  - an argument value that is neither an integer nor a quoted string",
  "  - arguments without a following block",
  "  - nesting deeper than the configured limit (--max-depth)",
  "",
  "EXECUTION ERRORS",
  "----------------",
  "Reported with the dotted path of the field:",
  "",
  "  films.rating not found          no such scalar field",
  "  films.reviews field not found   no such list field",
  "",
  "A failing data source aborts the whole query; no partial result is returned.",
  "With --legacy-errors, failures are printed as \x7b\"errors\": [\"...\"]\x7d."]

inductive Category where
  | selections
  | arguments
  | errors
  deriving DecidableEq

namespace Category

/-- The category of a name, of which letter case does not count and which may have hyphens in
place of underscores. -/
def ofName? (name : String) : Option Category :=
  match name.toLower.replace "-" "_" with
  | "syntax" | "selections" => some .selections
  | "arguments" | "args" => some .arguments
  | "errors" | "error" => some .errors
  | _ => none

def text : Category → String
  | .selections => selectionsPage
  | .arguments => argumentsPage
  | .errors => errorsPage

end Category

end FieldQuery.Manual
