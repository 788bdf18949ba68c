import Btfind.Library.Percent
import Btfind.Web.HashText

/-!
# Magnet links

The link of a hash and of the name that is displayed for it. The percent-encoder is a parameter of
which its documented behaviour is assumed: every byte that is no ASCII letter or digit is encoded.
-/

namespace Btfind

open Percent

/-- `u8::is_ascii_alphanumeric` -/
def isAsciiAlphanumeric (b : UInt8) : Bool :=
  (48 ≤ b.toNat && b.toNat ≤ 57) || (65 ≤ b.toNat && b.toNat ≤ 90) ||
    (97 ≤ b.toNat && b.toNat ≤ 122)

/-- `utf8_percent_encode(_, NON_ALPHANUMERIC)` -/
def EncodesNonAlphanumeric (encode : String → String) : Prop :=
  ∀ text, (encode text).toList = Percent.encode isAsciiAlphanumeric (asBytes text)

/-- The name that a link displays; an empty one is left out. -/
def shownName (name : Option String) : Option String := name.filter fun n => !n.isEmpty

/-- The part of a link behind the hash. -/
def magnetName (encode : String → String) (displayName : Option String) : String :=
  match shownName displayName with
  | some name => "&dn=" ++ encode name
  | none => ""

/-- `magnet_uri` -/
def magnetUri (encode : String → String) (infoHashHex : String) (displayName : Option String) :
    Except String String :=
  if infoHashHex.utf8ByteSize ≠ 40 then
    .error ("info_hash must be exactly 40 hex characters, got " ++
      toString infoHashHex.utf8ByteSize)
  else
    let lower := toAsciiLowercase infoHashHex
    if lower.toList.any fun c => !isAsciiHexdigit c then
      .error "info_hash contains non-hex characters"
    else .ok ("magnet:?xt=urn:btih:" ++ lower ++ magnetName encode displayName)

/-- `u8::is_ascii_alphanumeric` on the characters of a link, and the marks between its parts. -/
def isLinkChar (c : Char) : Bool :=
  c.isAlphanum || c == ':' || c == '?' || c == '=' || c == '&' || c == '%'

/-- The parameters behind the scheme. -/
def linkParameters (uri : String) : Option (List (List Char × List Char)) :=
  (uri.toList.dropPrefix? "magnet:?".toList).map Percent.readQuery

/-! ## The links that are made -/

section Accepted

variable {encode : String → String} {text uri : String} {name : Option String} {hash : InfoHash}

theorem utf8ByteSize_toAsciiLowercase (text : String) :
    (toAsciiLowercase text).utf8ByteSize = text.utf8ByteSize := by
  conv_rhs => rw [← String.ofList_toList (s := text)]
  rw [toAsciiLowercase, String.utf8ByteSize_ofList, String.utf8ByteSize_ofList]
  induction text.toList with
  | nil => rfl
  | cons c cs ih =>
    rw [List.map_cons, String.utf8Len_cons, String.utf8Len_cons, ih, utf8Size_toLower]

/-- A text in lower case denotes the same hash. -/
theorem denotes_toAsciiLowercase : Denotes (toAsciiLowercase text) hash ↔ Denotes text hash := by
  have hsame : toAsciiLowercase (toAsciiLowercase text) = toAsciiLowercase text := by
    rw [toAsciiLowercase, toAsciiLowercase, String.toList_ofList, List.map_map]
    exact congrArg _ (List.map_congr_left fun c _ => toLower_toLower c)
  rw [Denotes, hsame, Denotes]

/-- The parameters of the link of a hash. -/
def magnetParameters (encode : String → String) (hash : InfoHash) (name : Option String) :
    List (List Char × List Char) :=
  ("xt".toList, "urn:btih:".toList ++ (hexEncode hash).toList) ::
    (shownName name).toList.map fun n => ("dn".toList, (encode n).toList)

/-- The link of a hash. -/
def magnetLink (encode : String → String) (hash : InfoHash) (name : Option String) : String :=
  "magnet:?xt=urn:btih:" ++ hexEncode hash ++ magnetName encode name

/-- The two checks together are the check of a hash in a request. -/
theorem magnetUri_ok_iff :
    magnetUri encode text name = .ok uri ↔
      ∃ hash, Denotes text hash ∧ uri = magnetLink encode hash name := by
  have hvalid : (∃ hash, Denotes text hash) ↔ text.utf8ByteSize = 40 ∧
      (toAsciiLowercase text).toList.all isAsciiHexdigit = true := by
    rw [← utf8ByteSize_toAsciiLowercase, ← isInfoHashHex_eq_true, isInfoHashHex_iff]
    exact exists_congr fun hash => denotes_toAsciiLowercase.symm
  have hany : (toAsciiLowercase text).toList.any (fun c => !isAsciiHexdigit c) =
      !(toAsciiLowercase text).toList.all isAsciiHexdigit := by
    rw [List.all_eq_not_any_not, Bool.not_not]
  by_cases hhash : ∃ hash, Denotes text hash
  · obtain ⟨hsize, hall⟩ := hvalid.mp hhash
    obtain ⟨hash, hdenotes⟩ := hhash
    rw [magnetUri, if_neg (not_not.mpr hsize)]
    simp only [hany, hall, Bool.not_true, Bool.false_eq_true, if_false, Except.ok.injEq]
    have hlower : toAsciiLowercase text = hexEncode hash := hdenotes
    rw [hlower]
    constructor
    · rintro rfl
      exact ⟨hash, hdenotes, rfl⟩
    · rintro ⟨other, hother, rfl⟩
      rw [hother.unique hdenotes]
      rfl
  · refine iff_of_false (fun hok => hhash (hvalid.mpr ?_)) fun ⟨hash, h, _⟩ => hhash ⟨hash, h⟩
    rw [magnetUri] at hok
    by_cases hsize : text.utf8ByteSize = 40
    · rw [if_neg (not_not.mpr hsize)] at hok
      simp only [hany] at hok
      split_ifs at hok with hall
      exact ⟨hsize, by simpa using hall⟩
    · rw [if_pos hsize] at hok
      cases hok

/-- A hash of twenty bytes always has a link. -/
theorem magnetUri_hexEncode (encode : String → String) (hash : InfoHash) (name : Option String) :
    magnetUri encode (hexEncode hash) name = .ok (magnetLink encode hash name) :=
  magnetUri_ok_iff.mpr ⟨hash, denotes_hexEncode hash, rfl⟩

end Accepted

/-- `magnet_uri_from_hash`, whose `expect` is never met by an error. -/
def magnetUriFromHash (encode : String → String) (hash : InfoHash) (name : Option String) :
    String :=
  (magnetUri encode (hexEncode hash) name).toOption.get (by rw [magnetUri_hexEncode]; rfl)

/-! ## Reading a link -/

section Reading

variable {encode : String → String} {name other : Option String} {hash : InfoHash} {c : Char}

theorem plain_isAsciiAlphanumeric : Plain isAsciiAlphanumeric := by
  intro b h
  simp only [isAsciiAlphanumeric, Bool.or_eq_true, Bool.and_eq_true, decide_eq_true_eq] at h
  omega

/-- An encoded name is letters, digits and percent signs. -/
theorem isAlphanum_of_mem_encode (hencode : EncodesNonAlphanumeric encode) {text : String}
    (h : c ∈ (encode text).toList) : c.isAlphanum = true ∨ c = '%' := by
  rw [hencode] at h
  obtain ⟨b, hb, rfl⟩ | rfl | ⟨n, hn, rfl⟩ := mem_encode h
  · have hall : ∀ k < 128, isAsciiAlphanumeric (UInt8.ofNat k) = true →
        (Char.ofNat k).isAlphanum = true := by decide
    left
    apply hall b.toNat (plain_isAsciiAlphanumeric b hb).1
    rwa [UInt8.ofNat_toNat]
  · exact .inr rfl
  · have hall : ∀ n < 16, (digit n).isAlphanum = true := by decide
    exact .inl (hall n hn)

theorem not_mem_encode (hencode : EncodesNonAlphanumeric encode) {text : String}
    (hc : c.isAlphanum = false) (hpercent : c ≠ '%') : c ∉ (encode text).toList := by
  intro h
  rcases isAlphanum_of_mem_encode hencode h with halnum | heq
  · rw [hc] at halnum
    cases halnum
  · exact hpercent heq

theorem isAlphanum_of_mem_hexEncode (h : c ∈ (hexEncode hash).toList) : c.isAlphanum = true := by
  rw [toList_hexEncode] at h
  obtain ⟨n, hn, rfl⟩ := List.mem_map.mp h
  have hall : ∀ n < 16, (hexDigit n).isAlphanum = true := by decide
  exact hall n (hashDigits_lt hash n hn)

theorem not_mem_hexEncode (hc : c.isAlphanum = false) : c ∉ (hexEncode hash).toList := by
  intro h
  rw [isAlphanum_of_mem_hexEncode h] at hc
  cases hc

theorem toList_magnetLink :
    (magnetLink encode hash name).toList =
      "magnet:?".toList ++ query (magnetParameters encode hash name) := by
  have hhash : "magnet:?xt=urn:btih:".toList =
      "magnet:?".toList ++ ("xt".toList ++ '=' :: "urn:btih:".toList) := by decide
  have hname : "&dn=".toList = '&' :: ("dn".toList ++ ['=']) := by decide
  have hempty : "".toList = [] := by decide
  unfold magnetLink magnetName magnetParameters query
  rw [String.toList_append, String.toList_append, hhash]
  -- The texts of the constants play no part in what follows.
  generalize (hexEncode hash).toList = hex
  generalize "magnet:?".toList = scheme
  generalize "xt".toList = xt
  generalize "urn:btih:".toList = urn
  cases shownName name with
  | none =>
    rw [hempty]
    simp [parameter, List.intercalate]
  | some n =>
    rw [String.toList_append, hname]
    generalize "dn".toList = dn
    simp [parameter, List.intercalate]

/-- No name can add a parameter or change one. -/
theorem linkParameters_magnetLink (hencode : EncodesNonAlphanumeric encode) :
    linkParameters (magnetLink encode hash name) = some (magnetParameters encode hash name) := by
  have hxt : '=' ∉ "xt".toList ∧ '&' ∉ "xt".toList := by decide
  have hdn : '=' ∉ "dn".toList ∧ '&' ∉ "dn".toList := by decide
  have hurn : '&' ∉ "urn:btih:".toList := by decide
  have hwell : ∀ p ∈ magnetParameters encode hash name, WellFormed p := by
    intro p hp
    rcases List.mem_cons.mp hp with rfl | hp
    · refine ⟨hxt.1, hxt.2, fun h => ?_⟩
      rcases List.mem_append.mp h with h | h
      · exact hurn h
      · exact not_mem_hexEncode (by decide) h
    · obtain ⟨n, -, rfl⟩ := List.mem_map.mp hp
      exact ⟨hdn.1, hdn.2, not_mem_encode hencode (by decide) (by decide)⟩
  have hdrop : ("magnet:?".toList ++ query (magnetParameters encode hash name)).dropPrefix?
      "magnet:?".toList = some (query (magnetParameters encode hash name)) :=
    List.dropPrefix?_append_of_beq _ (beq_self_eq_true _)
  have hne : magnetParameters encode hash name ≠ [] := List.cons_ne_nil _ _
  rw [linkParameters, toList_magnetLink, hdrop, Option.map_some, readQuery_query hne hwell]

theorem isLinkChar_of_mem (hencode : EncodesNonAlphanumeric encode)
    (h : c ∈ (magnetLink encode hash name).toList) : isLinkChar c = true := by
  have hhead : ∀ c ∈ "magnet:?xt=urn:btih:".toList, isLinkChar c = true :=
    List.all_eq_true.mp (by decide)
  have hname : ∀ c ∈ "&dn=".toList, isLinkChar c = true := List.all_eq_true.mp (by decide)
  have halnum : ∀ c : Char, c.isAlphanum = true → isLinkChar c = true := by
    intro c hc
    simp [isLinkChar, hc]
  unfold magnetLink magnetName at h
  rw [String.toList_append, String.toList_append, List.mem_append, List.mem_append] at h
  obtain (h | h) | h := h
  · exact hhead c h
  · exact halnum c (isAlphanum_of_mem_hexEncode h)
  · cases hshown : shownName name with
    | none =>
      rw [hshown] at h
      simp at h
    | some n =>
      rw [hshown, String.toList_append, List.mem_append] at h
      obtain h | h := h
      · exact hname c h
      · obtain h | rfl := isAlphanum_of_mem_encode hencode h
        · exact halnum c h
        · rfl

theorem encode_injective (hencode : EncodesNonAlphanumeric encode) :
    Function.Injective encode := by
  intro a b h
  apply asBytes_injective
  apply Option.some.inj
  rw [← decode_encode plain_isAsciiAlphanumeric, ← hencode, h, hencode,
    decode_encode plain_isAsciiAlphanumeric]

/-- The hash and the displayed name are read off a link. -/
theorem magnetLink_inj (hencode : EncodesNonAlphanumeric encode) {hash' : InfoHash}
    (h : magnetLink encode hash name = magnetLink encode hash' other) :
    hash = hash' ∧ shownName name = shownName other := by
  have hparams := congrArg linkParameters h
  rw [linkParameters_magnetLink hencode, linkParameters_magnetLink hencode, Option.some_inj,
    magnetParameters, magnetParameters, List.cons.injEq, Prod.mk.injEq] at hparams
  obtain ⟨⟨-, hhash⟩, hname⟩ := hparams
  refine ⟨hexEncode_injective (String.toList_inj.mp (List.append_cancel_left hhash)), ?_⟩
  cases hone : shownName name <;> cases htwo : shownName other <;>
    rw [hone, htwo] at hname <;> simp at hname
  rw [encode_injective hencode (String.toList_inj.mp hname)]

/-- The links are those of the hashes: each text of a hash gets the link from which the hash and
the displayed name are read back, whatever the name is. -/
theorem magnet_link_reads_back (hencode : EncodesNonAlphanumeric encode) (text : String)
    (name : Option String) :
    ((∃ uri, magnetUri encode text name = .ok uri) ↔ ∃ hash, Denotes text hash) ∧
    ∀ uri, magnetUri encode text name = .ok uri → ∃ hash, Denotes text hash ∧
      linkParameters uri = some (("xt".toList, "urn:btih:".toList ++ (hexEncode hash).toList) ::
        (shownName name).toList.map fun n => ("dn".toList, (encode n).toList)) ∧
      (∀ n, decode (encode n).toList = some (asBytes n)) ∧
      (∀ c ∈ uri.toList, isLinkChar c = true) ∧
      ∀ text' name', magnetUri encode text' name' = .ok uri →
        Denotes text' hash ∧ shownName name' = shownName name := by
  constructor
  · constructor
    · rintro ⟨uri, h⟩
      obtain ⟨hash, hdenotes, -⟩ := magnetUri_ok_iff.mp h
      exact ⟨hash, hdenotes⟩
    · rintro ⟨hash, hdenotes⟩
      exact ⟨_, magnetUri_ok_iff.mpr ⟨hash, hdenotes, rfl⟩⟩
  · intro uri h
    obtain ⟨hash, hdenotes, rfl⟩ := magnetUri_ok_iff.mp h
    refine ⟨hash, hdenotes, linkParameters_magnetLink hencode, fun n => ?_,
      fun c => isLinkChar_of_mem hencode, fun text' name' h' => ?_⟩
    · rw [hencode, decode_encode plain_isAsciiAlphanumeric]
    · obtain ⟨hash', hdenotes', hlink⟩ := magnetUri_ok_iff.mp h'
      obtain ⟨rfl, hname⟩ := magnetLink_inj hencode hlink
      exact ⟨hdenotes', hname.symm⟩

/-- The encoder itself. -/
def percentEncode (text : String) : String :=
  String.ofList (Percent.encode isAsciiAlphanumeric (asBytes text))

theorem encodesNonAlphanumeric_percentEncode : EncodesNonAlphanumeric percentEncode :=
  fun _ => String.toList_ofList

theorem magnet_link_reads_back_ampersand :
    ∃ uri, magnetUri percentEncode "0123456789ABCDEF0123456789abcdef01234567" (some "a&xt=b") =
      .ok uri :=
  (magnet_link_reads_back encodesNonAlphanumeric_percentEncode _ _).1.mpr
    (isInfoHashHex_iff.mp (by decide))

end Reading

end Btfind
