import JsonLayout.Datum.Error
import JsonLayout.Text.Utf8

/-!
# Crashes

Most errors are answered with a message, and the program goes on or ends as it should.  The failures
here are answered by nothing and end the program where they arise.

## Main definitions

* `Crash`: the failures.
* `Crash.message`: each in words.
-/

namespace JsonLayout

/-- A failure that nothing answers. -/
inductive Crash where
  /-- A path with a null character. -/
  | embeddedNull
  /-- Surrogates that cannot be encoded, in a path or in what is written to a file. -/
  | unencodable (run : Utf8.Unencodable)
  /-- An error about data that is not answered with its message. -/
  | unanswered (error : DataError)
  /-- An indentation that was asked for without a number. -/
  | noIndent
deriving DecidableEq

/-- A crash in words. -/
def Crash.message : Crash → Text
  | .embeddedNull => "embedded null byte"
  | .unencodable run =>
    let place : Text :=
      if run.first = run.last then
        ("character '" : Text) ++ run.point.numberedEscape ++ ("' in position " : Text) ++
          Decimal.ofNat run.first
      else
        ("characters in position " : Text) ++ Decimal.ofNat run.first ++ ("-" : Text) ++
          Decimal.ofNat run.last
    ("'utf-8' codec can't encode " : Text) ++ place ++ (": surrogates not allowed" : Text)
  | .unanswered error => error.message
  | .noIndent => "'<' not supported between instances of 'list' and 'int'"

end JsonLayout
