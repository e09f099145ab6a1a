import FactoryAgent.Lib.Checks
import FactoryAgent.Lib.Text
import Mathlib.Data.List.Infix

/-!
# The read-only gate

`_assert_read_only` of `execution/sandbox_runtime.py`, which every statement passes before the sandbox executes
it: a test of the first word of the text, of its beginning and of words anywhere in it.
-/

/-- The words that a text may begin with. -/
def readOnlyWords : List String := ["SELECT", "WITH", "DESCRIBE", "SHOW", "EXPLAIN"]

/-- `_FORBIDDEN_PREFIXES`. -/
def forbiddenPrefixes : List String :=
  ["ATTACH", "DETACH", "COPY", "CREATE", "DROP", "ALTER", "INSERT", "UPDATE", "DELETE", "PRAGMA", "EXPORT",
    "IMPORT", "INSTALL", "LOAD", "CALL", "SET", "RESET", "CHECKPOINT", "VACUUM", "BEGIN", "COMMIT", "ROLLBACK"]

/-- `_FORBIDDEN_TOKENS`. -/
def forbiddenTokens : List String :=
  ["READ_CSV", "READ_JSON", "READ_PARQUET", "PARQUET_SCAN", "CSV_READ", "GLOB(", "SNIPPET(", "PG_", "MYSQL_",
    "SQLITE_SCAN", "ICEBERG_", "HTTPFS"]

/-- `sql.strip().rstrip(";").strip()`. -/
def strippedStatement (sql : List Char) : List Char :=
  Text.stripped ((Text.stripped sql).reverse.dropWhile (· == ';')).reverse

/-- `text.split(None, 1)[0]`, which is empty for an empty text. -/
def firstWord (text : List Char) : List Char :=
  (text.dropWhile Text.isSpace).takeWhile (fun c => !Text.isSpace c)

open Checks in
/-- **`_assert_read_only`.** -/
def assertReadOnly (sql : List Char) : Except String Unit := do
  let upper := Text.upperChars (strippedStatement sql)
  require (String.ofList (firstWord upper) ∈ readOnlyWords)
    "only SELECT/WITH statements may run in the sandbox"
  each forbiddenPrefixes fun kind =>
    require (¬ kind.toList <+: upper) ("statement type " ++ kind ++ " is blocked in the sandbox")
  each forbiddenTokens fun token =>
    require (¬ token.toList <:+: upper) "external access functions are blocked in the sandbox"
