import Cixtech.Common.AppError
import Cixtech.Common.Text
import Cixtech.Foundation.Ipv6Texts

/-! The check of the host that a webhook is delivered to. It decides on the text of an address
whether the address is private, so that it depends on how the address is written.
-/

namespace Cixtech.Webhooks

open Cixtech.Common Cixtech.Foundation Cixtech.Foundation.IpTexts

/-- `isIP` of `node:net`. -/
def isIP (ip : String) : Nat :=
  if isDottedQuad ip.toList then 4
  else if isIpv6 ip.toList then 6
  else 0

/-- `Number` of a text of decimal digits, the only ones that reach the range checks. -/
def number (text : List Char) : Option Nat :=
  if text.all Char.isDigit then some (Nat.ofDigitChars 10 text 0) else none

def isPrivateV4 (ip : List Char) : Bool :=
  match (ip.splitOn '.').map number with
  | [some a, some b, some c, some d] =>
      decide (a > 255 ∨ b > 255 ∨ c > 255 ∨ d > 255)
      || a = 0
      || a = 10
      || a = 127
      || (a = 169 && b = 254)
      || (a = 172 && b ≥ 16 && b ≤ 31)
      || (a = 192 && b = 168)
      || (a = 100 && b ≥ 64 && b ≤ 127)
      || (a = 192 && b = 0)
      || (a = 198 && (b = 18 || b = 19))
      || a ≥ 224
  | _ => true

def withoutOpening : List Char → List Char
  | '[' :: rest => rest
  | text => text

def withoutClosing (text : List Char) : List Char :=
  if text.getLast? = some ']' then text.dropLast else text

/-- `text.replace(/^\[|\]$/g, "")`. -/
def withoutBrackets (text : List Char) : List Char := withoutClosing (withoutOpening text)

/-- `/^\d+\.\d+\.\d+\.\d+$/`. -/
def fourNumbers (text : List Char) : Bool :=
  let parts := text.splitOn '.'
  parts.length = 4 && parts.all fun part => !part.isEmpty && part.all Char.isDigit

/-- `/^0{1,4}$/`. -/
def zeros (text : List Char) : Bool :=
  !text.isEmpty && decide (text.length ≤ 4) && text.all fun c => c = '0'

/-- `/^[0-9a-f]{1,4}$/`. -/
def lowerGroup (text : List Char) : Bool :=
  !text.isEmpty && decide (text.length ≤ 4)
  && text.all fun c => "0123456789abcdef".toList.contains c

/-- `/^::(?:ffff:(?:0{1,4}:)?)?(\d+\.\d+\.\d+\.\d+)$/`, by the pieces between the colons. -/
def dotted (pieces : List (List Char)) : Option (List Char) :=
  let captured := match pieces with
    | [[], [], quad] => some quad
    | [[], [], mapped, quad] => if mapped = "ffff".toList then some quad else none
    | [[], [], mapped, group, quad] =>
        if mapped = "ffff".toList && zeros group then some quad else none
    | _ => none
  captured.filter fourNumbers

/-- `/^::(?:ffff:)([0-9a-f]{1,4}):([0-9a-f]{1,4})$/`, by the pieces between the colons. -/
def hexMapped (pieces : List (List Char)) : Option (List Char × List Char) :=
  match pieces with
  | [[], [], mapped, high, low] =>
      if mapped = "ffff".toList && lowerGroup high && lowerGroup low then some (high, low) else none
  | _ => none

/-- `${hi >> 8}.${hi & 0xff}.${lo >> 8}.${lo & 0xff}`. -/
def quadOf (high low : Nat) : List Char :=
  ['.'].intercalate
    [Nat.toDigits 10 (high >>> 8), Nat.toDigits 10 (high &&& 0xff), Nat.toDigits 10 (low >>> 8),
      Nat.toDigits 10 (low &&& 0xff)]

/-- `/^f[cd][0-9a-f]{2}:/.test(bare)`. -/
def uniqueLocal : List Char → Bool
  | first :: second :: third :: fourth :: next :: _ =>
      first = 'f' && (second = 'c' || second = 'd') && lowerGroup [third, fourth] && next = ':'
  | _ => false

/-- What is decided where one of the expressions for an embedded quad matches. -/
def embeddedPrivate (pieces : List (List Char)) : Option Bool :=
  match dotted pieces with
  | some quad => some (isPrivateV4 quad)
  | none =>
      (hexMapped pieces).map fun mapped =>
        isPrivateV4 (quadOf (groupValue mapped.1) (groupValue mapped.2))

def isPrivateV6 (ip : List Char) : Bool :=
  let bare := withoutBrackets ip
  if bare = "::1".toList || bare = "::".toList then true
  else
    (embeddedPrivate (bare.splitOn ':')).getD
      ("fe80".toList.isPrefixOf bare || uniqueLocal bare || "ff".toList.isPrefixOf bare)

/-- A text that is an IPv6 address is lowered as ASCII. -/
def isPrivateAddress (ip : String) : Bool :=
  match isIP ip with
  | 4 => isPrivateV4 ip.toList
  | 6 => isPrivateV6 (ip.toList.map Char.toLower)
  | _ => true

/-- `new UnsafeWebhookUrlError(message, { context: { host: hostname } })`. -/
def unsafeHost (hostname message : String) : AppError :=
  { code := .unsafeWebhookUrl, message, context := [("host", .text hostname)] }

/-- What `lookup` answers is nothing where it rejects. A call without options requires the host to
be resolvable.
-/
def assertPublicHost (lookup : String → Option (List String))
    (requireResolvable : Option Bool) (hostname : String)
    : Except AppError Unit :=
  let bare := String.ofList (withoutBrackets hostname.toList)
  if isIP bare ≠ 0 then
    if isPrivateAddress bare then
      .error (unsafeHost hostname s!"Webhook host {hostname} is a private or loopback address")
    else .ok ()
  else
    match (lookup bare).getD [] with
    | [] =>
        if requireResolvable = some false then .ok ()
        else .error (unsafeHost hostname s!"Webhook host {hostname} does not resolve")
    | answers =>
        match answers.find? isPrivateAddress with
        | some address =>
            .error
              (unsafeHost hostname
                s!"Webhook host {hostname} resolves to a private address ({address})")
        | none => .ok ()

end Cixtech.Webhooks
