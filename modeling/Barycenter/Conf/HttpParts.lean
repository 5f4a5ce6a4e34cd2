import Barycenter.Conf.Draft
import Barycenter.Conf.Names
import Barycenter.Validate.Model
import Mathlib.Algebra.Group.Nat.Defs

/-!
# The parts of an http server block

What the locations of a server block are built from: headers, the condition on a
source, and the TLS directives towards a pool.
-/

namespace Barycenter

namespace Conf

open Config
open Validate (Runtime acmePath coversHost)

/-! ## Headers and conditions -/

def requestHeaderNodes (rules : Option (List HeaderRule)) : List DraftNode :=
  (rules.getD []).map fun rule =>
    .directive "proxy_set_header" [.lit rule.name, .lit rule.value]

/-- The condition of an `if` on a variable. -/
def condition (name : String) : List DraftValue := [.lit ("($" ++ name ++ ")")]

def returnNode (args : List DraftValue) : DraftNode := .directive "return" args

/-! ## Certificates -/

def certificateOf (model : Model) (key : String) : Option Certificate :=
  lastWith Certificate.key model.certificates key

def materialVersion (ref : String) : Except String String :=
  if Store.materialRefSyntax ref then
    .ok (String.ofList ((ref.toList.dropWhile (· ≠ '@')).drop 1))
  else
    .error ("시크릿 참조 모양이 아니다: " ++ JsonText.quoted ref ++ " (store://<name>@<version>)")

structure CertPaths where
  chain : String
  key : String
  deriving DecidableEq, Repr

def certPaths (certKey version : String) : CertPaths where
  chain := s!"certs/{certKey}/{version}/fullchain.pem"
  key := s!"certs/{certKey}/{version}/privkey.pem"

def pathsOf (certificate : Certificate) : Except String CertPaths :=
  match certificate.materialRef with
  | none =>
      .error s!"자료 없는 인증서가 렌더에 도달했다: '{certificate.key}' (ACME 발급 전이다)"
  | some ref => (materialVersion ref).map (certPaths certificate.key)

/-! ## TLS directives -/

/-- A specific address that a listener on the wildcard address also listens on. -/
structure AlsoOn where
  addr : String
  args : Except String (List DraftValue)
  /-- The hosts that the listeners of the address answer to. -/
  hosts : List String

/-- What the servers of an https listener are rendered with. -/
structure TlsContext where
  binding : RawTlsBinding
  bindings : List SniCertificateBinding
  policy : TlsPolicy
  http2 : Bool
  rejectMismatch : Bool
  cipher : CipherPolicyRef
  confCommand : Bool
  hsts : Option HstsPolicy

def upstreamTlsNodes (model : Model) (tls : Option UpstreamTls) : List DraftNode :=
  match tls with
  | none => []
  | some tls =>
      if !tls.enabled then []
      else
        let bundle := (tls.caBundle.bind (certificateOf model)).filter fun certificate =>
          certificate.materialRef.isSome
        (tls.sni.toList.map fun sni => .directive "proxy_ssl_name" [.lit sni]) ++
          match bundle with
          | none => []
          | some certificate =>
              (match pathsOf certificate with
                | .ok paths => [.directive "proxy_ssl_trusted_certificate" [.lit paths.chain]]
                | .error message => [.thrown message]) ++
                if tls.verify = some true then [.directive "proxy_ssl_verify" [.lit "on"]] else []

end Conf

end Barycenter
