import AgentConfig.Schema.Shape

namespace AgentConfig

/-- How far a server insists on encrypted connections. -/
inductive TlsMode where
  | disabled
  | allow
  | prefer
  | require
  deriving DecidableEq

namespace TlsMode

def word : TlsMode → String
  | disabled => "disabled"
  | allow => "allowSSL"
  | prefer => "preferSSL"
  | require => "requireSSL"

def choices : Choices TlsMode where
  all := [disabled, allow, prefer, require]
  word := word
  mem_all a := by cases a <;> simp
  word_injective a b := by cases a <;> cases b <;> simp [word]

def shape : Shape TlsMode :=
  .choice choices

end TlsMode

/-- Whether the agent has to present a certificate. -/
inductive CertificateMode where
  | optional
  | required
  deriving DecidableEq

namespace CertificateMode

def word : CertificateMode → String
  | optional => "OPTIONAL"
  | required => "REQUIRE"

def choices : Choices CertificateMode where
  all := [optional, required]
  word := word
  mem_all a := by cases a <;> simp
  word_injective a b := by cases a <;> cases b <;> simp [word]

def shape : Shape CertificateMode :=
  .choice choices

end CertificateMode

/-- Encryption of the connections to one server. -/
structure ServerTls where
  mode : TlsMode
  caFile : String := ""
  keyFile : String := ""
  allowWithoutCertificates : Bool := false

def ServerTls.shape : Shape ServerTls :=
  .record "MongoDBSSL"
    (.cons (.plain "mode") TlsMode.shape none <|
     .cons (.aliased "ca_file" "CAFile") (.text false) (some "") <|
     .cons (.aliased "pem_key_file" "PEMKeyFile") (.text false) (some "") <|
     .cons (.aliased "allow_connections_without_certificates" "allowConnectionsWithoutCertificates") .bool
       (some false) <|
     .nil)
    { split := fun x => (x.mode, x.caFile, x.keyFile, x.allowWithoutCertificates, ())
      join := fun (mode, caFile, keyFile, allowWithoutCertificates, _) =>
        { mode, caFile, keyFile, allowWithoutCertificates }
      join_split := fun _ => rfl
      split_join := fun _ => rfl }

/-- Encryption of the agent's own connections. -/
structure AgentTls where
  caFile : String := ""
  certificates : CertificateMode := .optional

def AgentTls.shape : Shape AgentTls :=
  .record "SSL"
    (.cons (Label.aliased "ca_file_path" "CAFilePath").omitted (.text false) (some "") <|
     .cons (.aliased "client_certificate_mode" "clientCertificateMode") CertificateMode.shape (some .optional) <|
     .nil)
    { split := fun x => (x.caFile, x.certificates, ())
      join := fun (caFile, certificates, _) => { caFile, certificates }
      join_split := fun _ => rfl
      split_join := fun _ => rfl }

end AgentConfig
