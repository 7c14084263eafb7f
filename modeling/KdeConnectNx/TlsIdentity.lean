import KdeConnectNx.JsonText

/-!
# The own certificate and its key

At the start the certificate and the key are read from two files, and a new pair is
made when that fails. Parsing a certificate adds to the chain that is there already,
and the first of the chain is the one a peer is shown. The TLS library is a parameter.
-/

namespace KdeConnectNx.TlsIdentity

/-- The calls made into the TLS library, and what a certificate says. -/
structure Mbedtls where
  Certificate : Type
  Key : Type
  PublicKey : Type
  /-- `mbedtls_x509_crt_parse`: the certificates it adds to the chain, and its result. -/
  crtParse : List UInt8 → List Certificate × Int32
  /-- `mbedtls_pk_parse_key`; none when it fails, the key being reset then. -/
  pkParseKey : List UInt8 → Option Key
  /-- `mbedtls_x509_dn_gets` into a buffer of 256 bytes. -/
  dnGets : Certificate → String
  /-- `mbedtls_x509write_crt_pem` of a certificate for the key, signed with it, with this
  subject; none when it fails. -/
  writeCrtPem : Key → String → Option (List UInt8)
  publicKey : Key → PublicKey
  /-- The public key in a certificate. -/
  certKey : Certificate → PublicKey
  /-- The common name in its subject. -/
  commonName : Certificate → Option String
  /-- The text is a PEM text of the certificate. -/
  IsPem : List UInt8 → Certificate → Prop

/-- A hexadecimal digit. -/
def hex (n : ℕ) : Char := if n < 10 then Char.ofNat (48 + n) else Char.ofNat (87 + n)

/-- Two digits for each of the random bytes. -/
def generateDeviceId (bytes : List UInt8) : String :=
  String.ofList (bytes.flatMap fun b => [hex (b.toNat / 16), hex (b.toNat % 16)])

/-- A certificate that was written, if its text can be parsed again, is one for the key
and the name that were given. -/
def Mbedtls.Lawful (lib : Mbedtls) : Prop :=
  ∀ key bytes pem certs, lib.writeCrtPem key ("CN=" ++ generateDeviceId bytes) = some pem →
    lib.crtParse pem = (certs, 0) → ∃ cert, certs = [cert] ∧
      lib.certKey cert = lib.publicKey key ∧
      lib.commonName cert = some (generateDeviceId bytes) ∧ lib.IsPem pem cert

/-- What one start finds: the two files, empty where one is missing, the random numbers
and the results of the calls. -/
structure StartIo (lib : Mbedtls) where
  certFile : List UInt8
  keyFile : List UInt8
  bytes : List UInt8
  /-- `mbedtls_pk_setup` succeeds. -/
  setup : Bool := true
  /-- `mbedtls_ecp_gen_key`. -/
  newKey : Option lib.Key
  /-- The names of subject and issuer can be set. -/
  names : Bool := true
  certWritten : Bool := true
  /-- `mbedtls_pk_write_key_pem` succeeds. -/
  keyPem : Bool := true
  keyWritten : Bool := true

/-- What a `TlsContext` keeps of its own identity. -/
structure TlsContext (lib : Mbedtls) where
  /-- `cert_`, a chain. -/
  cert : List lib.Certificate := []
  /-- `key_`, none while it is not set up. -/
  key : Option lib.Key := none
  deviceId : String := ""
  certPem : List UInt8 := []

/-- What stands behind the first place where the text has the pattern. -/
def afterFirst (pattern : List Char) : List Char → Option (List Char)
  | [] => if pattern.isEmpty then some [] else none
  | c :: cs =>
    if pattern.isPrefixOf (c :: cs) then some ((c :: cs).drop pattern.length)
    else afterFirst pattern cs

/-- The text of a printed subject from the first `CN=` to the next comma. -/
def nameIn (subject : String) : Option String :=
  (afterFirst ['C', 'N', '='] subject.toList).map fun cs =>
    String.ofList (cs.takeWhile (· != ','))

section Start

variable {lib : Mbedtls}

/-- The printed subject of the first certificate; nothing is printed of an empty chain. -/
def subjectOf (chain : List lib.Certificate) : String := chain.head?.elim "" lib.dnGets

def loadFromFiles (io : StartIo lib) (t : TlsContext lib) : Bool × TlsContext lib :=
  if io.certFile.isEmpty || io.keyFile.isEmpty then (false, t)
  else
    let parsed := lib.crtParse io.certFile
    let t := { t with cert := t.cert ++ parsed.1 }
    if parsed.2 ≠ 0 then (false, t)
    else
      match lib.pkParseKey io.keyFile with
      | none => (false, { t with key := none })
      | some key =>
        match nameIn (subjectOf t.cert) with
        | none => (false, { t with cert := [], key := none })
        | some name => (true, { t with key := some key, deviceId := name, certPem := io.certFile })

def generateSelfSigned (io : StartIo lib) (t : TlsContext lib) : Bool × TlsContext lib :=
  let t := if t.deviceId.isEmpty then { t with deviceId := generateDeviceId io.bytes } else t
  if t.key.isSome || !io.setup then (false, t)
  else
    match io.newKey with
    | none => (false, t)
    | some key =>
      let t := { t with key := some key }
      if !io.names then (false, t)
      else
        match lib.writeCrtPem key ("CN=" ++ t.deviceId) with
        | none => (false, t)
        | some pem =>
          let t := { t with certPem := pem }
          if !io.certWritten || !io.keyPem || !io.keyWritten then (false, t)
          else
            let parsed := lib.crtParse pem
            (decide (parsed.2 = 0), { t with cert := t.cert ++ parsed.1 })

def loadOrCreate (io : StartIo lib) (t : TlsContext lib) : Bool × TlsContext lib :=
  let loaded := loadFromFiles io t
  if loaded.1 then (true, loaded.2) else generateSelfSigned io loaded.2

/-- The certificate is one for the key, this name and this text. -/
structure Fits (cert : lib.Certificate) (key : lib.Key) (name : String) (pem : List UInt8) :
    Prop where
  key : lib.certKey cert = lib.publicKey key
  name : lib.commonName cert = some name
  pem : lib.IsPem pem cert

/-- The first certificate of the chain is the one for the key, the id and the text. -/
def Consistent (t : TlsContext lib) : Prop :=
  ∃ cert key, t.cert.head? = some cert ∧ t.key = some key ∧ Fits cert key t.deviceId t.certPem

/-- The certificates, the key and the name in files that can be loaded. -/
def inFiles (io : StartIo lib) : Option (List lib.Certificate × lib.Key × String) :=
  if io.certFile.isEmpty || io.keyFile.isEmpty then none
  else if (lib.crtParse io.certFile).2 ≠ 0 then none
  else
    (lib.pkParseKey io.keyFile).bind fun key =>
      (nameIn (subjectOf (lib.crtParse io.certFile).1)).map fun name =>
        ((lib.crtParse io.certFile).1, key, name)

/-- The certificates that stay in the chain where the files cannot be loaded: those that
were parsed before a failure, but for that of a subject without a name. -/
def leftOver (io : StartIo lib) : List lib.Certificate :=
  if io.certFile.isEmpty || io.keyFile.isEmpty then []
  else if (lib.crtParse io.certFile).2 ≠ 0 then (lib.crtParse io.certFile).1
  else if (lib.pkParseKey io.keyFile).isNone then (lib.crtParse io.certFile).1
  else []

/-- Files that can be loaded belong together, others leave nothing behind. -/
def Usable (io : StartIo lib) : Prop :=
  match inFiles io with
  | some (certs, key, name) => ∃ cert ∈ certs.head?, Fits cert key name io.certFile
  | none => leftOver io = []

/-- A new key is not that of a certificate on the card. -/
def Fresh (io : StartIo lib) : Prop :=
  ∀ key ∈ io.newKey, ∀ cert ∈ (lib.crtParse io.certFile).1, lib.certKey cert ≠ lib.publicKey key

/-! ## Loading and making -/

variable {io : StartIo lib} {t : TlsContext lib}

/-- Loading from the files: their content, or what is left of it. -/
theorem loadFromFiles_eq (io : StartIo lib) :
    loadFromFiles io {} = match inFiles io with
      | some (certs, key, name) => (true, ⟨certs, some key, name, io.certFile⟩)
      | none => (false, { cert := leftOver io }) := by
  unfold loadFromFiles inFiles leftOver
  split
  · rfl
  · dsimp only
    rw [List.nil_append]
    split
    · rfl
    · cases lib.pkParseKey io.keyFile with
      | none => rfl
      | some key =>
        rw [Option.bind_some]
        cases nameIn (subjectOf (lib.crtParse io.certFile).1) with
        | none => rfl
        | some name => rfl

/-- What is left was in the file. -/
theorem leftOver_subset (io : StartIo lib) : leftOver io ⊆ (lib.crtParse io.certFile).1 := by
  unfold leftOver
  split
  · exact List.nil_subset _
  · split
    · exact List.Subset.refl _
    · split
      · exact List.Subset.refl _
      · exact List.nil_subset _

/-- A new pair is added behind what is in the chain. -/
theorem generateSelfSigned_eq_true (hlib : lib.Lawful) (hid : t.deviceId = "")
    (h : (generateSelfSigned io t).1 = true) :
    ∃ key cert pem, io.newKey = some key ∧
      Fits cert key (generateDeviceId io.bytes) pem ∧
      (generateSelfSigned io t).2 =
        ⟨t.cert ++ [cert], some key, generateDeviceId io.bytes, pem⟩ := by
  unfold generateSelfSigned at h ⊢
  have hempty : t.deviceId.isEmpty = true := by rw [hid]; rfl
  rw [if_pos hempty] at h ⊢
  dsimp only at h ⊢
  split at h
  · cases h
  · rename_i hsetup
    rw [if_neg hsetup]
    cases hkey : io.newKey with
    | none =>
      rw [hkey] at h
      cases h
    | some key =>
      rw [hkey] at h
      dsimp only at h ⊢
      split at h
      · cases h
      · rename_i hnames
        rw [if_neg hnames]
        cases hpem : lib.writeCrtPem key ("CN=" ++ generateDeviceId io.bytes) with
        | none =>
          rw [hpem] at h
          cases h
        | some pem =>
          rw [hpem] at h
          dsimp only at h ⊢
          split at h
          · cases h
          · rename_i hwritten
            rw [if_neg hwritten]
            have hparse : lib.crtParse pem = ((lib.crtParse pem).1, 0) :=
              Prod.ext rfl (of_decide_eq_true h)
            obtain ⟨cert, hcerts, hcert, hname, htext⟩ :=
              hlib key io.bytes pem (lib.crtParse pem).1 hpem hparse
            refine ⟨key, cert, pem, rfl, ⟨hcert, hname, htext⟩, ?_⟩
            rw [hcerts]

/-- For every content of the two files, whatever the library makes of it: if the start
succeeds, the certificate that is shown is one for the key, the id and the text that are
kept exactly if the files belong together, or nothing of them is left in the chain. -/
theorem consistent_iff_usable (hlib : lib.Lawful) (hfresh : Fresh io)
    (h : (loadOrCreate io {}).1 = true) : Consistent (loadOrCreate io {}).2 ↔ Usable io := by
  have hload := loadFromFiles_eq io
  unfold loadOrCreate at h ⊢
  unfold Usable
  cases hfiles : inFiles io with
  | some found =>
    obtain ⟨certs, key, name⟩ := found
    rw [hfiles] at hload
    rw [hload]
    constructor
    · rintro ⟨cert, key', hcert, hkey, hfits⟩
      obtain rfl := Option.some.inj hkey
      exact ⟨cert, hcert, hfits⟩
    · rintro ⟨cert, hcert, hfits⟩
      exact ⟨cert, key, hcert, rfl, hfits⟩
  | none =>
    rw [hfiles] at hload
    rw [hload] at h ⊢
    obtain ⟨key, cert, pem, hkey, hfits, hresult⟩ := generateSelfSigned_eq_true hlib rfl h
    dsimp only
    rw [if_neg Bool.false_ne_true]
    cases hleft : leftOver io with
    | nil =>
      rw [hleft] at hresult
      refine iff_of_true ⟨cert, key, ?_, ?_, ?_⟩ rfl
      · rw [hresult]
        rfl
      · rw [hresult]
      · rw [hresult]
        exact hfits
    | cons first rest =>
      -- the old certificate is shown, which is not one for the new key
      refine iff_of_false ?_ (List.cons_ne_nil first rest)
      rintro ⟨shown, key', hshown, hkey', hfits'⟩
      rw [hleft] at hresult
      rw [hresult] at hshown hkey'
      obtain rfl := Option.some.inj hshown
      obtain rfl := Option.some.inj hkey'
      have hmem : first ∈ leftOver io := by rw [hleft]; exact List.mem_cons_self
      exact hfresh key hkey first (leftOver_subset io hmem) hfits'.key

end Start

/-- Certificates in short: a letter, the number of the key, and the name. -/
def briefText (cert : UInt8 × String) : List UInt8 := 67 :: cert.1 :: JsonText.utf8 cert.2.toList

def briefParse : List UInt8 → List (UInt8 × String) × Int32
  | 67 :: key :: name =>
    (JsonText.ofUtf8 name).elim ([], -8576) fun cs => ([(key, String.ofList cs)], 0)
  | _ => ([], -8576)

theorem briefParse_briefText (cert : UInt8 × String) :
    briefParse (briefText cert) = ([cert], 0) := by
  rw [briefText, briefParse, JsonText.ofUtf8_utf8, Option.elim_some, String.ofList_toList]

/-- A library for these texts, and for keys that are a letter and a number. -/
abbrev brief : Mbedtls where
  Certificate := UInt8 × String
  Key := UInt8
  PublicKey := UInt8
  crtParse := briefParse
  pkParseKey := fun text =>
    match text with
    | [75, key] => some key
    | _ => none
  dnGets := fun cert => "CN=" ++ cert.2
  writeCrtPem := fun key subject => some (briefText (key, String.ofList (subject.toList.drop 3)))
  publicKey := id
  certKey := Prod.fst
  commonName := fun cert => some cert.2
  IsPem := fun text cert => text = briefText cert

theorem brief_lawful : brief.Lawful := by
  intro key bytes pem certs hpem hparse
  have hname : String.ofList (("CN=" ++ generateDeviceId bytes).toList.drop 3) =
      generateDeviceId bytes := by
    rw [String.toList_append]
    exact String.ofList_toList
  have htext : pem = briefText (key, generateDeviceId bytes) := by
    rw [← hname]
    exact (Option.some.inj hpem).symm
  have hread : briefParse pem = (certs, 0) := hparse
  rw [htext, briefParse_briefText] at hread
  exact ⟨(key, generateDeviceId bytes), (Prod.ext_iff.mp hread).1.symm, rfl, rfl, htext⟩

/-- A certificate whose key file is cut short. -/
def keyCutShort : StartIo brief where
  certFile := briefText (1, "0a")
  keyFile := [75]
  bytes := List.replicate 16 7
  newKey := some (2 : UInt8)

theorem keyCutShort_fresh : Fresh keyCutShort := by
  intro key hkey cert hcert
  have hparse : brief.crtParse keyCutShort.certFile = ([((1 : UInt8), "0a")], 0) :=
    briefParse_briefText (1, "0a")
  obtain rfl := Option.some.inj hkey
  rw [hparse] at hcert
  rw [List.mem_singleton.mp hcert]
  exact (by decide : ¬ (1 : UInt8) = 2)

/-- The start succeeds with the old certificate in front and the new key. -/
theorem loadOrCreate_keyCutShort :
    (loadOrCreate keyCutShort {}).1 = true ∧
      (loadOrCreate keyCutShort {}).2.cert.head? = some ((1 : UInt8), "0a") ∧
      (loadOrCreate keyCutShort {}).2.key = some (2 : UInt8) := by
  refine ⟨by decide +kernel, ?_, ?_⟩
  · decide +kernel
  · decide +kernel

/-- A peer is shown the old certificate. -/
theorem notConsistent_keyCutShort :
    ¬ ∀ (lib : Mbedtls) (io : StartIo lib), lib.Lawful → Fresh io →
      (loadOrCreate io {}).1 = true → Consistent (loadOrCreate io {}).2 := by
  intro h
  obtain ⟨hstarts, hold, hnew⟩ := loadOrCreate_keyCutShort
  obtain ⟨cert, key, hcert, hkey, hfits⟩ :=
    h brief keyCutShort brief_lawful keyCutShort_fresh hstarts
  rw [hold] at hcert
  rw [hnew] at hkey
  obtain rfl := Option.some.inj hcert
  obtain rfl := Option.some.inj hkey
  exact absurd hfits.key (by decide : ¬ (1 : UInt8) = 2)

theorem consistent_iff_keyCutShort :
    Consistent (loadOrCreate keyCutShort {}).2 ↔ Usable keyCutShort :=
  consistent_iff_usable brief_lawful keyCutShort_fresh loadOrCreate_keyCutShort.1

end KdeConnectNx.TlsIdentity
