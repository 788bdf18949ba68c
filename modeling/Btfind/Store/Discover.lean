import Btfind.Store.Schema

/-!
# Recording a discovered hash

`discover` runs inside every transaction that meets a hash. It touches the
torrent row, the totals and the job row of the hash, and nothing else.
-/

namespace Btfind

/-- `IF(FIND_IN_SET(v, s) > 0, s, CONCAT_WS(',', NULLIF(s, ''), v))` -/
def addDiscoverySource (source : String) (sources : List String) : List String :=
  if source ∈ sources then sources else sources ++ [source]

def TorrentRow.discovered (now : Int) (source : String) : TorrentRow where
  name := none
  pieceLength := none
  totalSize := 0
  fileCount := 0
  source := source
  firstSeen := now
  lastSeen := now
  lastAttempt := 0
  metadataComplete := false

def TorrentRow.rediscovered (now : Int) (source : String) (row : TorrentRow) : TorrentRow :=
  { row with source := source, lastSeen := now }

namespace HashJobRow

/-- The row that a peer-bearing discovery inserts. -/
def discovered (status : JobStatus) (now : Int) (source : String) : HashJobRow where
  status := status
  attemptCount := 0
  nextAttemptAt := 0
  lastFailure := none
  lastSuccessAt := none
  lastNewPeerAt := some now
  discoverySources := [source]
  updatedAt := now

/-- The duplicate-key branch for a torrent that is complete. -/
def onCompleteTorrent (inserted row : HashJobRow) (source : String) : HashJobRow :=
  { row with
    status := .complete
    lastFailure := none
    nextAttemptAt := 0
    lastNewPeerAt := inserted.lastNewPeerAt.or row.lastNewPeerAt
    discoverySources := addDiscoverySource source row.discoverySources
    updatedAt := inserted.updatedAt }

/-- The duplicate-key branch for a torrent that is not complete. -/
def onNewPeers (inserted row : HashJobRow) (source : String) : HashJobRow :=
  { row with
    status :=
      match row.status with
      | .complete | .invalid | .unsupported => row.status
      -- Only a discovery with peers wakes a job that waits for them.
      | .waitingPeers => if inserted.lastNewPeerAt.isNone then row.status else .queued
      | _ => .queued
    nextAttemptAt := if inserted.lastNewPeerAt.isNone then row.nextAttemptAt else 0
    lastNewPeerAt := inserted.lastNewPeerAt.or row.lastNewPeerAt
    discoverySources := addDiscoverySource source row.discoverySources
    updatedAt := inserted.updatedAt }

/-- The update by a discovery without peers. -/
def onPeerless (now : Int) (source : String) (row : HashJobRow) : HashJobRow :=
  { row with
    status :=
      match row.status with
      | .complete | .invalid | .unsupported => row.status
      | .waitingPeers => row.status
      | _ => .queued
    discoverySources := addDiscoverySource source row.discoverySources
    updatedAt := now }

end HashJobRow

/-- What `discover` does to `hash_jobs`, given the completion flag it has read. -/
def discoverJob (now : Int) (hash : InfoHash) (source : String) (peers : Bool)
    (metadataComplete : Option Bool) (jobs : KeyedTable InfoHash HashJobRow) :
    KeyedTable InfoHash HashJobRow :=
  if peers then
    if metadataComplete = some true then
      let inserted := HashJobRow.discovered .complete now source
      jobs.upsert hash inserted fun row => inserted.onCompleteTorrent row source
    else
      let inserted := HashJobRow.discovered .queued now source
      jobs.upsert hash inserted fun row => inserted.onNewPeers row source
  else jobs.adjust hash fun row => row.onPeerless now source

def discover (now : Int) (hash : InfoHash) (source : String) (peers : Bool) (c : Catalogue) :
    DiscoveryPersistence × Catalogue :=
  let metadataComplete := (c.torrents.lookup hash).map TorrentRow.metadataComplete
  let torrentInserted := metadataComplete.isNone
  let jobExists := (c.hashJobs.lookup hash).isSome
  let c := { c with torrents :=
    c.torrents.upsert hash (.discovered now source) (.rediscovered now source) }
  let c :=
    if torrentInserted then
      { c with catalogTotals.totalTorrents := c.catalogTotals.totalTorrents + 1 }
    else c
  let c := { c with hashJobs := discoverJob now hash source peers metadataComplete c.hashJobs }
  ({ torrentInserted := torrentInserted
     hashJobCreated := peers && !jobExists
     peerlessJobSkipped := !peers && !jobExists }, c)

section Frame

variable {now : Int} {hash : InfoHash} {source : String} {peers : Bool} {c : Catalogue}

@[simp] theorem discover_torrents : (discover now hash source peers c).2.torrents =
    c.torrents.upsert hash (.discovered now source) (.rediscovered now source) := by
  rw [discover]
  simp only
  split <;> rfl

@[simp] theorem discover_hashJobs : (discover now hash source peers c).2.hashJobs =
    discoverJob now hash source peers ((c.torrents.lookup hash).map TorrentRow.metadataComplete)
      c.hashJobs := by
  rw [discover]
  simp only
  split <;> rfl

@[simp] theorem discover_catalogTotals : (discover now hash source peers c).2.catalogTotals =
    { c.catalogTotals with totalTorrents :=
        c.catalogTotals.totalTorrents + if (c.torrents.lookup hash).isNone then 1 else 0 } := by
  rw [discover]
  simp only [Option.isNone_map]
  split <;> simp

/-- `discover` leaves the other tables alone. -/
theorem discover_frame : (discover now hash source peers c).2 =
    { c with
      torrents := (discover now hash source peers c).2.torrents
      hashJobs := (discover now hash source peers c).2.hashJobs
      catalogTotals := (discover now hash source peers c).2.catalogTotals } := by
  rw [discover]
  simp only
  split <;> rfl

@[simp] theorem discover_files : (discover now hash source peers c).2.files = c.files := by
  rw [discover_frame]

@[simp] theorem discover_hashJobPeers :
    (discover now hash source peers c).2.hashJobPeers = c.hashJobPeers := by
  rw [discover_frame]

@[simp] theorem discover_metadataPeerAttempts :
    (discover now hash source peers c).2.metadataPeerAttempts = c.metadataPeerAttempts := by
  rw [discover_frame]

@[simp] theorem discover_searchDocuments :
    (discover now hash source peers c).2.searchDocuments = c.searchDocuments := by
  rw [discover_frame]

end Frame

/-- The job row of the discovered hash after the discovery. -/
def discoveredRow (now : Int) (source : String) (peers : Bool) (metadataComplete : Option Bool)
    (old : Option HashJobRow) : Option HashJobRow :=
  match peers, metadataComplete, old with
  | true, some true, some row =>
    some ((HashJobRow.discovered .complete now source).onCompleteTorrent row source)
  | true, some true, none => some (.discovered .complete now source)
  | true, _, some row => some ((HashJobRow.discovered .queued now source).onNewPeers row source)
  | true, _, none => some (.discovered .queued now source)
  | false, _, old => old.map fun row => row.onPeerless now source

theorem discoverJob_lookup {now : Int} {hash k : InfoHash} {source : String} {peers : Bool}
    {done : Option Bool} {jobs : KeyedTable InfoHash HashJobRow} :
    (discoverJob now hash source peers done jobs).lookup k =
      if k = hash then discoveredRow now source peers done (jobs.lookup hash)
      else jobs.lookup k := by
  rw [discoverJob]
  cases peers with
  | false => simp only [Bool.false_eq_true, if_false, AList.lookup_adjust, discoveredRow]
  | true =>
    simp only [if_true]
    split
    · next hd =>
      subst hd
      rw [AList.lookup_upsert]
      cases jobs.lookup hash <;> simp [discoveredRow]
    · next hd =>
      rw [AList.lookup_upsert]
      match done, hd with
      | none, _ => cases jobs.lookup hash <;> simp [discoveredRow]
      | some false, _ => cases jobs.lookup hash <;> simp [discoveredRow]

end Btfind
