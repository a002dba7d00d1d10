import Mailshot.Value.Display

/-!
# What can go wrong

* `Fault` — the causes for which an operation gives no result, one constructor each.
* `Fault.label` — the word that names the class of a cause in the report of a failed run.
* `Fault.message?` — the sentence that goes with the causes that are worded here.
-/

namespace Mailshot

/-- The causes for which an operation gives no result. -/
inductive Fault
  /-- Fields are asked of a value that is no mapping. -/
  | notMapping
  /-- An item is added to a value that is no list. -/
  | notExtendable
  /-- Blanks are trimmed off a value that is no text. -/
  | notTrimmable
  /-- A value marked as a moment has no such form. -/
  | notMoment
  /-- Arithmetic is done on a value that is no number. -/
  | notNumber
  /-- The items of a value that has none are counted. -/
  | notCountable
  /-- The items of a value that has none are visited. -/
  | notIterable
  /-- A run of items is taken from a value that has no order. -/
  | notSliceable
  /-- A line that is no text is joined to others. -/
  | notJoinable
  /-- What is written to a file is no text. -/
  | notText
  /-- A part of a message is no text. -/
  | notMessagePart
  /-- A list or a mapping is used as a key. -/
  | notKey
  /-- A position is compared that is no number. -/
  | notComparable
  /-- A position is a number but not an integer. -/
  | notPosition
  /-- An item is replaced in a value that cannot change, or by a value that has no fields. -/
  | notAssignable
  /-- A field is read in a value that is no mapping. -/
  | notIndexable
  /-- A path is no text. -/
  | notPath
  /-- A field that must be there is missing. -/
  | missingField
  /-- A text marked as a truth value is none. -/
  | notTruth
  /-- A product is given a field that no product has. -/
  | unknownField (field : Scalar)
  /-- A new product is given fields that no product has. -/
  | unknownFields (fields : List Text)
  /-- No product stands at a position. -/
  | noProduct (position : Value) (count : Nat)
  /-- A text marked as a number is empty. -/
  | emptyNumber
  /-- A number is too large for a double-precision number or an integer. -/
  | outOfRange
  /-- The value that is no number is rounded to an integer. -/
  | notFinite
  /-- A date, a number or a code in a file stands for nothing. -/
  | badScalar
  /-- An integer has too many digits to be shown. -/
  | tooManyDigits
  /-- Every text of a value that holds itself is to be visited. -/
  | endless
  /-- The collections of a file are nested too deeply. -/
  | tooDeep
  /-- The text of a value is asked for that is made of parts. -/
  | notMatchable
  /-- A text holds half a character where only characters can stand. -/
  | notEncodable
  /-- A path holds the character that ends one. -/
  | badPath
  /-- A file does not hold a mapping. -/
  | noMappingIn (path : Text)
  /-- A file is not written in the configuration language. -/
  | malformed
  /-- A file is not text. -/
  | undecodable
  /-- The configuration file is not there. -/
  | noConfigAt (path : Text)
  /-- A file or one of its folders is not there. -/
  | missingFile
  /-- A folder is made where a file stands. -/
  | fileExists
  /-- A file stands where a folder is needed. -/
  | notFolder
  /-- A folder stands where a file is needed. -/
  | isFolder
  /-- The name of a file or folder is too long. -/
  | nameTooLong
  /-- The mail server breaks off in a way that is not the mail's own. -/
  | foreign (label : Text)

namespace Fault

/-- The word that names the class of a cause. -/
def label : Fault → Text
  | notMapping | notExtendable | notTrimmable | notMoment | notMessagePart => "AttributeError"
  | notNumber | notCountable | notIterable | notSliceable | notJoinable | notKey | notComparable
  | notPosition | notAssignable | notIndexable | notPath | notText | notMatchable => "TypeError"
  | missingField | notTruth | unknownField _ | unknownFields _ => "KeyError"
  | noProduct _ _ | emptyNumber => "IndexError"
  | outOfRange => "OverflowError"
  | notFinite | badScalar | badPath | tooManyDigits | noMappingIn _ => "ValueError"
  | endless | tooDeep => "RecursionError"
  | notEncodable => "UnicodeEncodeError"
  | malformed => "YAMLError"
  | undecodable => "UnicodeDecodeError"
  | noConfigAt _ | missingFile => "FileNotFoundError"
  | fileExists => "FileExistsError"
  | notFolder => "NotADirectoryError"
  | isFolder => "IsADirectoryError"
  | nameTooLong => "OSError"
  | foreign label => label

/-- The sentence that goes with a cause, where it has one. -/
def message? : Fault → Option Text
  | unknownField field => some ("Unknown product field " ++ field.inspect)
  | unknownFields fields =>
      some ("Unknown product field(s): " ++ (Value.list (fields.map Value.text)).inspect)
  | noProduct position count =>
      some ("No product at index " ++ position.display ++ " (" ++ Text.ofNat count ++ " products)")
  | noConfigAt path => some ("Config file not found: " ++ path)
  | noMappingIn path => some (path ++ " must contain a YAML mapping")
  | _ => none

end Fault

end Mailshot
