import Folio.Text.Integer
import Folio.Text.Split

/-!
# Hosts of URLs

A host is a name, or a numeric address of eight groups in brackets.  Every group has
up to four hexadecimal digits; two colons stand for one or more groups of zeros, and
the last two groups may be written as four decimal bytes.
-/

namespace Folio.Redis.Url

def isGroup (text : List Char) : Bool :=
  !text.isEmpty && text.length ≤ 4 &&
    text.all fun c => c.isDigit || ('a' ≤ c && c ≤ 'f') || ('A' ≤ c && c ≤ 'F')

def isDottedQuad (text : List Char) : Bool :=
  let parts := Text.splitChars '.' text
  parts.length == 4 && parts.all fun part =>
    (Text.natural? part).any (· < 256) && (part.head? != some '0' || part.length == 1)

/-- How many groups a part of a numeric address has; four decimal bytes at its end are two. -/
def groupCount? (text : List Char) : Option Nat :=
  if text.isEmpty then some 0
  else
    let parts := Text.splitChars ':' text
    let last := parts.getLastD []
    if !parts.dropLast.all isGroup then none
    else if isGroup last then some parts.length
    else if isDottedQuad last then some (parts.length + 1)
    else none

/-- What stands in front of and behind the first double colon, if there is one. -/
def cutAtGap : List Char → Option (List Char × List Char)
  | [] => none
  | ':' :: ':' :: rest => some ([], rest)
  | c :: rest => (cutAtGap rest).map fun (front, back) => (c :: front, back)

/-- Whether a text is a numeric address of eight groups, where a gap stands for zeros. -/
def isNumericAddress (text : List Char) : Bool :=
  match cutAtGap text with
  | none => groupCount? text == some 8
  | some (front, back) =>
      !front.contains '.' &&
        match groupCount? front, groupCount? back with
        | some before, some behind => before + behind < 8
        | _, _ => false

/-- Whether a text may be a host: an address in brackets, or a name. -/
def isHost (host : List Char) : Bool :=
  match host with
  | '[' :: rest => rest.getLast? == some ']' && isNumericAddress rest.dropLast
  | host => !host.any fun c => "\x00\t\n\r #/:<>?@[\\]^|".toList.contains c

end Folio.Redis.Url
