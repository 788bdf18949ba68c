import Btfind.Store.Schema

/-!
# Search documents

The text that is indexed for a torrent: letters and digits of the NFKC form of
its name and of its paths, with one space for every run of other characters.
The Unicode tables are a parameter.
-/

namespace Btfind

/-- `str::nfkc` and `char::is_alphanumeric`. -/
structure Unicode where
  nfkc : String → List Char
  isAlphanumeric : Char → Bool

/-- The tables on ASCII text, which is its own NFKC form. -/
def Unicode.ascii : Unicode := ⟨String.toList, Char.isAlphanum⟩

def searchDocumentBytes : Nat := 16 * 1024 * 1024

def searchPacketHeadroom : Nat := 16 * 1024

/-- `SearchLimits::for_packet`; only the document limit is used here. -/
def SearchLimits.forPacket (packet : Nat) : Except StoreError Nat :=
  let documentBytes := min (packet - searchPacketHeadroom) searchDocumentBytes
  if documentBytes < 1024 then
    .error (.invalid "max_allowed_packet is too small for search indexing")
  else .ok documentBytes

/-- The loop of `append_search_text`, with the output that it leaves when it stops early. -/
def appendSearchLoop (isAlphanumeric : Char → Bool) (budget : Nat) :
    List Char → Bool → String → Bool × String
  | [], _, output => (true, output)
  | c :: cs, separator, output =>
    if isAlphanumeric c = false then
      appendSearchLoop isAlphanumeric budget cs (!output.isEmpty) output
    else
      let size := c.utf8Size + if separator then 1 else 0
      if budget < output.utf8ByteSize + size then (false, output)
      else
        let output := if separator then output.push ' ' else output
        appendSearchLoop isAlphanumeric budget cs false (output.push c)

/-- The output of a call that returns `true`; both callers give up on `false`. -/
def appendedText (r : Bool × String) : Option String := if r.1 then some r.2 else none

def appendSearchText (u : Unicode) (output input : String) (budget : Nat) : Option String :=
  appendedText (appendSearchLoop u.isAlphanumeric budget (u.nfkc input) (!output.isEmpty) output)

/-- The rows of `files` with a torrent id, in id order. -/
def filesOf (hash : InfoHash) (files : List FileRow) : List FileRow :=
  files.filter fun f => f.torrentId = hash

/-- The loop over the file rows of `search_document`. -/
def appendSearchPaths (u : Unicode) (budget pathBudget : Nat) :
    List String → String → Option String
  | [], output => some output
  | path :: paths, output =>
    if budget < path.utf8ByteSize then none
    else
      match appendSearchText u output path pathBudget with
      | some output => appendSearchPaths u budget pathBudget paths output
      | none => none

/-- `search_document` on the torrent row it fetches and the paths of the file rows. -/
def searchDocumentOf (u : Unicode) (hash : InfoHash) (budget : Nat) (row : TorrentRow)
    (paths : List String) : Except StoreError (Option SearchDocumentRow) :=
  let tooLarge : StoreError := .documentTooLarge hash budget
  let rawBytes : Option Nat :=
    if row.metadataComplete then row.name.map String.utf8ByteSize else some 0
  if budget < rawBytes.getD 0 then .error tooLarge
  else
    let rawName : Option String :=
      if row.metadataComplete then row.name.filter fun n => n.utf8ByteSize ≤ budget else none
    let reserved := (hexEncode hash).utf8ByteSize + 128
    if budget < reserved then .error tooLarge
    else
      let contentBudget := budget - reserved
      match appendSearchText u "" (rawName.getD "") contentBudget with
      | none => .error tooLarge
      | some name =>
        match appendSearchPaths u budget (contentBudget - name.utf8ByteSize) paths "" with
        | none => .error tooLarge
        | some found =>
          if rawName.isSome || !paths.isEmpty then .ok (some ⟨name, found⟩) else .ok none

def searchDocument (u : Unicode) (hash : InfoHash) (budget : Nat) (c : Catalogue) :
    Except StoreError (Option SearchDocumentRow) :=
  match c.torrents.lookup hash with
  | none => .error rowNotFound
  | some row => searchDocumentOf u hash budget row ((filesOf hash c.files).map FileRow.path)

/-- `refresh_search` after the limits are loaded. -/
def refreshSearchWithin (u : Unicode) (budget : Nat) (hash : InfoHash) (c : Catalogue) :
    Except StoreError Catalogue :=
  match searchDocument u hash budget c with
  | .error e => .error e
  | .ok (some document) =>
    .ok { c with searchDocuments := c.searchDocuments.insert hash document }
  | .ok none => .ok { c with searchDocuments := c.searchDocuments.erase hash }

def refreshSearch (u : Unicode) (packet : Nat) (hash : InfoHash) (c : Catalogue) :
    Except StoreError Catalogue :=
  (SearchLimits.forPacket packet).bind fun budget => refreshSearchWithin u budget hash c

/-- `is_unsupported_search_document` -/
def isUnsupportedSearchDocument : StoreError → Bool
  | .documentTooLarge _ _ => true
  | _ => false

/-- What `refresh_search` leaves for a torrent: the document that `search_document`
builds from its row and paths, or no row when there is none to build. -/
theorem refreshSearch_ok {u : Unicode} {packet : Nat} {hash : InfoHash} {c c' : Catalogue}
    (h : refreshSearch u packet hash c = .ok c') :
    ∃ budget document, searchDocument u hash budget c = .ok document ∧
      c'.searchDocuments.lookup hash = document ∧
      c' = { c with searchDocuments := c'.searchDocuments } ∧
      ∀ k, k ≠ hash → c'.searchDocuments.lookup k = c.searchDocuments.lookup k := by
  obtain ⟨budget, -, hw⟩ := Transaction.ok_of_bind h
  rw [refreshSearchWithin] at hw
  split at hw
  · cases hw
  · next document hd =>
    cases hw
    refine ⟨budget, some document, hd, by simp, rfl, ?_⟩
    intro k hk
    simp [hk]
  · next hd =>
    cases hw
    refine ⟨budget, none, hd, by simp, rfl, ?_⟩
    intro k hk
    simp [hk]

end Btfind
