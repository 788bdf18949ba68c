import Btfind.Metadata.SystemSteps
import Btfind.Store.CompletedTorrents

/-!
# Integrity of completed torrents

Only a round that verified and parsed what a peer sent reaches a commit, so every
complete torrent shows metadata that hashes to its info hash.
-/

namespace Btfind.System

open Transition

variable {env : SystemEnv} {y y' z : System} {e : SystemEvent}

/-- Bytes that a peer sent hash to the info hash and parse as the metadata. -/
def Verified (codecs : Codecs) (received : List Bytes) (h : InfoHash) (info : TorrentInfo) : Prop :=
  ∃ bytes ∈ received, codecs.sha1 bytes = h ∧ codecs.parseTorrentInfo bytes = .ok info

/-- The metadata that may be stored for a hash. -/
def Storable (codecs : Codecs) (received : List Bytes) (h : InfoHash) (m : TorrentMetadata) :
    Prop :=
  ∃ info, Verified codecs received h info ∧ m = info.metadata

/-- Complete torrents show verified metadata, and rounds commit nothing else. -/
structure Authentic (env : SystemEnv) (y : System) : Prop where
  torrents : ∀ h, CompletedOk env.round.unicode (Storable env.round.codecs y.received)
    y.store.catalogue h
  committing : ∀ r ∈ y.sched.workers, ∀ info attempt todo,
    r.phase = .committing info attempt todo →
      Verified env.round.codecs y.received r.infoHash info

theorem Verified.mono {codecs : Codecs} {received more : List Bytes} {h : InfoHash}
    {info : TorrentInfo} (hv : Verified codecs received h info) :
    Verified codecs (received ++ more) h info := by
  obtain ⟨bytes, hb, hrest⟩ := hv
  exact ⟨bytes, List.mem_append_left _ hb, hrest⟩

theorem Storable.mono {codecs : Codecs} {received more : List Bytes} {h : InfoHash}
    {m : TorrentMetadata} (hs : Storable codecs received h m) :
    Storable codecs (received ++ more) h m := by
  obtain ⟨info, hv, rfl⟩ := hs
  exact ⟨info, hv.mono, rfl⟩

/-- What rounds have received only grows. -/
theorem Fires.received (h : Fires env y e z) :
    ∃ more, z.received = y.received ++ more ∧ ∀ index choice r, e = .worked index choice →
      y.sched.workers[index]? = some r → more = receivedBytes r choice := by
  cases h with
  | worked choice hw =>
    refine ⟨_, rfl, ?_⟩
    intro index choice r he hr
    cases he
    rw [hw] at hr
    cases hr
    rfl
  | attempted =>
    unfold attempt
    split <;> exact ⟨[], (List.append_nil _).symm, by rintro _ _ _ ⟨⟩⟩
  | lookedUp =>
    unfold lookUp
    split <;> exact ⟨[], (List.append_nil _).symm, by rintro _ _ _ ⟨⟩⟩
  | _ => exact ⟨[], (List.append_nil _).symm, by rintro _ _ _ ⟨⟩⟩

/-- Every change of the catalogue keeps complete torrents in agreement, when the
rounds commit allowed metadata only. -/
theorem Changes.completedOk {allowed : InfoHash → TorrentMetadata → Prop} {c : Catalogue}
    {h : InfoHash} (hc : Changes env y e c)
    (hi : CompletedOk env.round.unicode allowed y.store.catalogue h)
    (hallowed : ∀ r ∈ y.sched.workers, ∀ info attempt todo,
      r.phase = .committing info attempt todo → allowed r.infoHash info.metadata) :
    CompletedOk env.round.unicode allowed c h := by
  cases hc with
  | kept => exact hi
  | recorded => exact hi.recordDiscovery ..
  | batched => exact hi.recordRuntimeBatch ..
  | worked hw hwrites =>
    cases hwrites with
    | attempt => exact hi.of_same (.adjustTorrent fun _ => ⟨rfl, rfl⟩)
    | commit hphase hcommit =>
      exact hi.commit (hallowed _ (List.mem_of_getElem? hw) _ _ _ hphase) hcommit
    | update hphase _ hupdate =>
      exact hi.of_same (.updateJob (RoundPhase.writes_ne_complete hphase) hupdate)
  | prunedTorrents => exact hi.pruneBatch _
  | prunedAttempts => exact hi.of_same ⟨rfl, rfl, rfl, rfl⟩
  | reconciled => exact hi.of_same ⟨rfl, rfl, rfl, rfl⟩

theorem Authentic.fires (hi : Authentic env y) (h : Fires env y e z) : Authentic env z := by
  obtain ⟨more, hmore, hgot⟩ := h.received
  constructor
  · intro k
    have hk := h.changes.completedOk (hi.torrents k)
      fun r hr info attempt todo hphase => ⟨info, hi.committing r hr info attempt todo hphase, rfl⟩
    rw [hmore]
    exact ⟨hk.agree, fun hcomplete => (hk.shows hcomplete).imp fun m hm => ⟨hm.1.mono, hm.2⟩⟩
  · intro r hr info attempt todo hphase
    cases h.workers hr with
    | kept hold =>
      rw [hmore]
      exact (hi.committing r hold info attempt todo hphase).mono
    | spawned => cases hphase
    | @stepped index r choice hw =>
      have hmoves := Round.step_moves env.round choice r y.store
      rw [hphase] at hmoves
      rw [Round.step_infoHash, hmore]
      generalize hp : r.phase = phase at hmoves
      cases hmoves with
      | @parsed peer todo bytes info hfetched hverified hparsed =>
        have hbytes : more = [bytes] := by
          rw [hgot index choice r rfl hw, receivedBytes, hp, hfetched]
        refine ⟨bytes, by simp [hbytes], ?_, hparsed⟩
        simpa [Codecs.verifyMetadataHash, Round.infoHash] using hverified
      | recommit => exact (hi.committing r (List.mem_of_getElem? hw) _ _ _ hp).mono

theorem Authentic.starts (h : StartsMigrated y) : Authentic env y where
  torrents := by
    rw [h.2]
    exact fun _ => .migrated
  committing := by
    rw [h.1.sched]
    rintro r ⟨⟩

theorem Authentic.step (hi : Authentic env y) (h : Step env y e y') : Authentic env y' :=
  h.lift (fun _ _ hz => ⟨hz.torrents, hz.committing⟩) fun _ hz => hi.fires hz

/-- What the tables say about a hash. -/
structure Integrity (env : SystemEnv) (y : System) (h : InfoHash) : Prop where
  complete_iff :
    (∃ row, y.store.catalogue.torrents.lookup h = some row ∧ row.metadataComplete = true) ↔
      ∃ job, y.store.catalogue.hashJobs.lookup h = some job ∧ job.status = .complete
  verified : ∀ row, y.store.catalogue.torrents.lookup h = some row →
    row.metadataComplete = true → ∃ bytes ∈ y.received, ∃ info,
      env.round.codecs.sha1 bytes = h ∧ env.round.codecs.parseTorrentInfo bytes = .ok info ∧
      row.name = some info.name ∧ row.pieceLength = some info.pieceLength ∧
      row.totalSize = info.totalSize ∧ row.fileCount = info.files.length ∧
      filesOf h y.store.catalogue.files = info.files.map (fun f => ⟨h, f.1, f.2⟩) ∧
      ∃ budget document,
        searchDocument env.round.unicode h budget y.store.catalogue = .ok (some document) ∧
        y.store.catalogue.searchDocuments.lookup h = some document

/-- Whatever peers send, whatever fails and however the tasks interleave, a torrent
is complete exactly when its job is, and it shows metadata that a peer sent and
that hashes to its info hash. -/
theorem reachable_integrity (hr : Reachable StartsMigrated (Step env) y) (h : InfoHash) :
    Integrity env y h := by
  have hi : Authentic env y :=
    hr.invariant (fun _ hs => .starts hs) fun _ _ _ hs hst => hs.step hst
  have hok := hi.torrents h
  constructor
  · rw [← completedRow_isSome, ← jobComplete_iff, hok.agree]
  · intro row hrow hcomplete
    obtain ⟨m, ⟨info, ⟨bytes, hb, hsha, hparse⟩, rfl⟩, hshows⟩ :=
      hok.shows (completedRow_isSome.mpr ⟨row, hrow, hcomplete⟩)
    obtain ⟨row', hrow', -, hstored⟩ := completedRow_eq_some.mp hshows.row
    rw [hrow] at hrow'
    cases hrow'
    exact ⟨bytes, hb, info, hsha, hparse, congrArg StoredMetadata.name hstored,
      congrArg StoredMetadata.pieceLength hstored, congrArg StoredMetadata.totalSize hstored,
      congrArg StoredMetadata.fileCount hstored, hshows.files, hshows.document⟩

/-- A peer sends the metadata of a discovered hash. -/
theorem reachable_integrity_fetched :
    let info : BencodeDict :=
      [(asBytes "name", .bytes [97]), (asBytes "piece length", .int 16384),
        (asBytes "length", .int 5)]
    let env : SystemEnv :=
      ⟨⟨.ascii, ⟨fun _ => 7, fun _ => .ok (.dict info)⟩, 24⟩,
        ⟨1, 1, 1, 1, by decide, by decide, by decide, by decide⟩⟩
    let turn : Turn := ⟨1, 1048576, .commits⟩
    let start : System := ⟨.migrated, .empty, .idle, 0, [], []⟩
    let script : List SystemEvent :=
      [.discovered ⟨7, [⟨⟨⟨10, 0, 0, 1⟩, 6881⟩⟩], .announcePeer⟩ 1, .lookedUp, .attempted turn,
        .removed .commits, .admitted, .dispatched] ++
        List.replicate 6 (.worked 0 ⟨turn, .ok [], 0⟩)
    ∃ y, play env script start = some y ∧ jobComplete 7 y.store.catalogue = true ∧
      ∀ h, Integrity env y h := by
  intro info env turn start script
  have hdone : (play env script start).any (fun y => jobComplete 7 y.store.catalogue) = true := by
    decide
  obtain ⟨y, hplay, hcomplete⟩ := (Option.any_eq_true _ _).mp hdone
  have hinit : Reachable StartsMigrated (Step env) start := .of_init ⟨⟨rfl, rfl, rfl, rfl⟩, rfl⟩
  exact ⟨y, hplay, hcomplete, fun h => reachable_integrity (hinit.run (play_run hplay)) h⟩

end Btfind.System
