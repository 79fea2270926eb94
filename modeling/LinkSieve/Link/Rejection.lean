import LinkSieve.Policy.Rule

/-!
# Rejections

Why a line is not accepted. A rejection is a cause; its kind and its wording are functions of it.
Causes that several formats share carry the title of the format that they are reported for. Whoever
reads lines of a format of their own may have other reasons, which need only a kind and a wording.
-/

namespace LinkSieve.Link

/-- The kinds of rejections. -/
inductive Rejection.Kind where
  | malformed
  | missingField
  | outOfRange
  | disallowed
  | bannedContent
  | unsupported
deriving DecidableEq, Repr

/-- Why a line is not accepted. -/
inductive Rejection where
  | lineTooLong
  | unsupported
  | bannedWord (word : String)
  | violation (title : String) (violation : Policy.Violation)
  | badUrl (title : String)
  | wrongScheme (title : String)
  | missingHost (title : String)
  | missingPort (title : String)
  | portOutOfRange (title : String)
  | badHost (title : String)
  | missingUuid
  | missingPassword
  | missingUserInfo
  | badUserInfoEncoding
  | badUserInfoBase64
  | badUserInfoFormat
  | missingCredentials
  | badCipher
  | badLegacyBase64
  | badLegacyPayload
  | wrongHysteriaScheme
  | missingAuth
  | missingObfuscation
  | unknownObfuscation (method : String)
  | missingObfuscationPassword
  | notVmess
  | emptyPayload
  | badPayloadBase64
  | badPayloadJson
  | missingServerOrUuid
  | badPortText
  | missingPortField
  | portNumberOutOfRange
  | badServerHost
deriving DecidableEq, Repr

namespace Rejection

/-- The kind of a rejection. -/
def kind : Rejection → Kind
  | lineTooLong | portOutOfRange _ | portNumberOutOfRange => .outOfRange
  | unsupported => .unsupported
  | bannedWord _ => .bannedContent
  | violation _ _ | unknownObfuscation _ => .disallowed
  | missingHost _ | missingPort _ | missingUuid | missingPassword | missingUserInfo
  | missingCredentials | missingAuth | missingObfuscation | missingObfuscationPassword
  | emptyPayload | missingServerOrUuid | missingPortField => .missingField
  | badUrl _ | wrongScheme _ | badHost _ | badUserInfoEncoding | badUserInfoBase64
  | badUserInfoFormat | badCipher | badLegacyBase64 | badLegacyPayload | wrongHysteriaScheme
  | notVmess | badPayloadBase64 | badPayloadJson | badPortText | badServerHost => .malformed

/-- The wording of a rejection. -/
def reason : Rejection → String
  | lineTooLong => "line too long"
  | unsupported => "unsupported protocol"
  | bannedWord word => "bad word in name: " ++ Text.quoted word
  | violation title v => title ++ ": " ++ v.message
  | badUrl title => "invalid " ++ title ++ " URL format"
  | wrongScheme title => "invalid " ++ title ++ " URL scheme"
  | missingHost title => title ++ ": missing host"
  | missingPort title => title ++ ": missing port"
  | portOutOfRange title => title ++ ": port out of range"
  | badHost title => title ++ ": invalid host"
  | missingUuid => "VLESS: missing or invalid UUID"
  | missingPassword => "Trojan: missing password"
  | missingUserInfo => "Shadowsocks: missing user info"
  | badUserInfoEncoding => "Shadowsocks: invalid user info encoding"
  | badUserInfoBase64 => "Shadowsocks: invalid base64 user info"
  | badUserInfoFormat => "Shadowsocks: invalid user info format"
  | missingCredentials => "Shadowsocks: missing cipher or password"
  | badCipher => "Shadowsocks: invalid cipher"
  | badLegacyBase64 => "Shadowsocks: invalid base64 payload"
  | badLegacyPayload => "Shadowsocks: invalid legacy payload"
  | wrongHysteriaScheme => "invalid Hysteria2 scheme (expected 'hysteria2' or 'hy2')"
  | missingAuth => "missing auth info (UUID or username) in Hysteria2"
  | missingObfuscation =>
    "Hysteria2: obfs parameter is missing (required for public subscriptions)"
  | unknownObfuscation method =>
    "Hysteria2: unsupported obfs method " ++ Text.quoted method ++
      " (only 'salamander' allowed)"
  | missingObfuscationPassword =>
    "Hysteria2: obfs-password is missing (required when obfs is used)"
  | notVmess => "not a VMess link"
  | emptyPayload => "empty VMess payload"
  | badPayloadBase64 => "invalid VMess base64 encoding"
  | badPayloadJson => "invalid VMess JSON format"
  | missingServerOrUuid => "missing server address or UUID"
  | badPortText => "invalid port in VMess config"
  | missingPortField => "missing or invalid port in VMess config"
  | portNumberOutOfRange => "invalid port number"
  | badServerHost => "invalid server host"

end Rejection

/-- What can be a reason to reject a line. It has a kind and a wording, and the rejections of this
library are among such reasons. -/
class Refusal (ε : Type) where
  kind : ε → Rejection.Kind
  reason : ε → String
  ofRejection : Rejection → ε
  kind_ofRejection (r : Rejection) : kind (ofRejection r) = r.kind
  reason_ofRejection (r : Rejection) : reason (ofRejection r) = r.reason

instance : Refusal Rejection where
  kind := Rejection.kind
  reason := Rejection.reason
  ofRejection := id
  kind_ofRejection _ := rfl
  reason_ofRejection _ := rfl

/-- A reason of any kind in any words. -/
structure Objection where
  kind : Rejection.Kind
  reason : String
deriving DecidableEq, Repr

instance : Refusal Objection where
  kind := Objection.kind
  reason := Objection.reason
  ofRejection r := ⟨r.kind, r.reason⟩
  kind_ofRejection _ := rfl
  reason_ofRejection _ := rfl

end LinkSieve.Link
