import BearerAuth.Failure
import BearerAuth.Header

/-!
# Signed tokens

A token in compact form has three segments, separated by the last two points of the text: header,
payload and signature, each in base64.  What is signed are the first two with the point between.

* `SignedToken.ofString` takes a token apart and reads its header;
* `SignedToken.message` is what is signed.
-/

namespace BearerAuth

open Json

/-- A token taken apart, with its header read. -/
structure SignedToken where
  /-- The whole text. -/
  raw : String
  /-- The first segment. -/
  headerText : List Char
  /-- The second segment. -/
  payloadText : List Char
  /-- The third segment. -/
  signatureText : List Char
  /-- The header. -/
  header : Header
  deriving DecidableEq, Repr

namespace SignedToken

/-- Splits a text at its last point. -/
def splitLast? (text : List Char) : Option (List Char × List Char) :=
  let tail := (text.reverse.takeWhile (· != '.')).reverse
  match text.reverse.dropWhile (· != '.') with
  | _ :: front => some (front.reverse, tail)
  | [] => none

/-- The three segments of a text. -/
def segments? (text : List Char) : Option (List Char × List Char × List Char) := do
  let (front, signature) ← splitLast? text
  let (header, payload) ← splitLast? front
  pure (header, payload, signature)

/-- Reads a header segment. -/
def readHeader (segment : List Char) : Except TokenFault Header :=
  match Text.Base64Url.decode? segment with
  | none => .error .base64
  | some bytes =>
    match Header.ofDocument? (.ofOctets bytes) with
    | none => .error .json
    | some h => .ok h

/-- Takes a token apart. -/
def ofString (s : String) : Except TokenFault SignedToken :=
  match segments? s.toList with
  | none => .error .segments
  | some (headerText, payloadText, signatureText) =>
    match readHeader headerText with
    | .error f => .error f
    | .ok header => .ok { raw := s, headerText, payloadText, signatureText, header }

/-- The octets that are signed. -/
def message (t : SignedToken) : List UInt8 :=
  Text.Utf8.octets (String.ofList (t.headerText ++ '.' :: t.payloadText))

/-- The octets of the signature. -/
def signature? (t : SignedToken) : Option (List UInt8) :=
  Text.Base64Url.decode? t.signatureText

/-- The payload as a document. -/
def payload? (t : SignedToken) : Option Document :=
  (Text.Base64Url.decode? t.payloadText).map .ofOctets

end SignedToken

end BearerAuth
