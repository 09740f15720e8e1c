import ArduConfigurator.Mavftp.Operations

/-! # Listing a directory

A server pages a directory by the index of its raw entries: a reply holds some of them from the
index on that the request asks for. The listing counts the entries that it could read, so the index
it asks for next is right only as long as it could read them all. -/
namespace ArduConfigurator.Mavftp
open Effects
set_option autoImplicit false

/-! ## What a reply is read as -/

def entriesIn (directoryPath decoded : Text) : List MavftpDirectoryEntry :=
  (decoded.splitOn 0).filterMap (parseMavftpDirectoryEntry directoryPath)

variable {directoryPath : Text}

theorem parse_nil : parseMavftpDirectoryEntry directoryPath [] = none := rfl

theorem entriesIn_nil : entriesIn directoryPath [] = [] := by
  simp [entriesIn, List.splitOn, List.splitOnP_nil, parse_nil]

theorem entriesIn_append (before after : Text) :
    entriesIn directoryPath (before ++ 0 :: after) =
      entriesIn directoryPath before ++ entriesIn directoryPath after := by
  rw [entriesIn, List.splitOn, List.splitOnP_append_cons before after (by rfl),
    List.filterMap_append]
  rfl

theorem entriesIn_one (directoryPath : Text) {entry : Text} (h : (0 : UInt16) ∉ entry) :
    entriesIn directoryPath entry = (parseMavftpDirectoryEntry directoryPath entry).toList := by
  have hsplit : entry.splitOn 0 = [entry] := by
    refine List.splitOnP_eq_singleton fun c hc => ?_
    rw [beq_eq_false_iff_ne]
    rintro rfl
    exact h hc
  rw [entriesIn, hsplit]
  cases hparse : parseMavftpDirectoryEntry directoryPath entry <;> simp [hparse]

theorem entriesIn_rdropWhile (decoded : Text) :
    entriesIn directoryPath (decoded.rdropWhile (· = 0)) = entriesIn directoryPath decoded := by
  induction decoded using List.reverseRecOn with
  | nil => rfl
  | append_singleton decoded c ih =>
    rw [List.rdropWhile_concat]
    split
    · next hc =>
      rw [ih, of_decide_eq_true hc, entriesIn_append, entriesIn_nil, List.append_nil]
    · rfl

variable {c : UInt16}

theorem trim_cons_white (h : isWhiteSpace c = true) (text : Text) :
    trim (c :: text) = trim text := by
  rw [trim, List.dropWhile_cons_of_pos h]
  rfl

theorem entriesIn_cons_white (h : isWhiteSpace c = true) (decoded : Text) :
    entriesIn directoryPath (c :: decoded) = entriesIn directoryPath decoded := by
  have hne : ¬ (c == 0) = true := by
    rw [beq_iff_eq]
    rintro rfl
    exact absurd h (by decide)
  have hparse (entry : Text) : parseMavftpDirectoryEntry directoryPath (c :: entry) =
      parseMavftpDirectoryEntry directoryPath entry := by
    unfold parseMavftpDirectoryEntry
    rw [trim_cons_white h]
  rw [entriesIn, entriesIn, List.splitOn, List.splitOnP_cons_eq_if_modifyHead, if_neg hne, ← List.splitOn]
  cases decoded.splitOn 0 with
  | nil => rfl
  | cons entry entries => simp only [List.modifyHead_cons, List.filterMap_cons, hparse]

theorem entriesIn_decodeText (data : Bytes) :
    entriesIn directoryPath (decodeText data) = entriesIn directoryPath (decodeUnits data) := by
  unfold decodeText
  split
  · next hmark =>
    obtain ⟨rest, rfl⟩ := hmark
    have hmark : decodeUnits (byteOrderMark ++ rest) = 0xFEFF :: decodeUnits rest := by
      have hbom : byteOrderMark = String.utf8EncodeChar (Char.ofNat 0xfeff) := by decide
      rw [decodeUnits, hbom, Utf8Pending.decode_char, List.flatMap_cons]
      rfl
    rw [hmark, entriesIn_cons_white (by decide)]
    rfl
  · rfl

theorem parseMavftpDirectoryEntries_eq (data : Bytes) :
    parseMavftpDirectoryEntries directoryPath data =
      entriesIn (normalizeMavftpPath directoryPath) (decodeUnits data) := by
  unfold parseMavftpDirectoryEntries
  rw [← entriesIn_decodeText, ← entriesIn_rdropWhile]
  dsimp only
  split
  · next h => rw [h, entriesIn_nil]
  · rfl

/-! ## Directories and their pages -/

/-- The raw entries of a directory. Each fits a reply, and a request can ask for each of them. -/
structure RemoteDirectory where
  entries : List Bytes
  noZero : ∀ entry ∈ entries, (0 : UInt8) ∉ entry
  fits : ∀ entry ∈ entries, entry.length ≤ MAVFTP_MAX_DATA_SIZE
  indexed : entries.length < 4294967296

def pageData (entries : List Bytes) (padding : ℕ) : Bytes :=
  List.intercalate [0] entries ++ List.replicate padding 0

/-- How the server cuts the directory into replies: how many entries the answer to the last of
these requests holds from the index on, and how many NULs stand after them. -/
structure Chunking (directory : RemoteDirectory) where
  count : List Request → ℕ → ℕ
  padding : List Request → ℕ → ℕ
  positive : ∀ sent index, 0 < count sent index
  fits : ∀ sent index, index < directory.entries.length →
    (pageData ((directory.entries.drop index).take (count sent index))
      (padding sent index)).length ≤ MAVFTP_MAX_DATA_SIZE

def readEntry (path : Text) (raw : Bytes) : Option MavftpDirectoryEntry :=
  parseMavftpDirectoryEntry (normalizeMavftpPath path) (decodeUnits raw)

theorem entriesIn_zeros (padding : ℕ) :
    entriesIn directoryPath (decodeUnits (List.replicate padding 0)) = [] := by
  induction padding with
  | zero => exact entriesIn_nil
  | succ padding ih =>
    have := decodeUnits_append_zero [] (List.replicate padding 0)
    rw [List.replicate_succ, ← List.nil_append (0 :: _), this, entriesIn_append, ih,
      List.append_nil]
    exact entriesIn_nil

theorem entriesIn_raw {raw : Bytes} (h : (0 : UInt8) ∉ raw) (padding : ℕ) :
    entriesIn directoryPath (decodeUnits (raw ++ List.replicate padding 0)) =
      (parseMavftpDirectoryEntry directoryPath (decodeUnits raw)).toList := by
  have hone := entriesIn_one directoryPath (zero_notMem_decodeUnits h)
  cases padding with
  | zero => rw [List.replicate_zero, List.append_nil, hone]
  | succ padding =>
    rw [List.replicate_succ, decodeUnits_append_zero, entriesIn_append, entriesIn_zeros,
      List.append_nil, hone]

theorem filterMap_cons_toList {α β : Type} (f : α → Option β) (a : α) (as : List α) :
    (a :: as).filterMap f = (f a).toList ++ as.filterMap f := by
  rw [List.filterMap_cons]
  cases f a <;> rfl

theorem parse_pageData {path : Text} {entries : List Bytes}
    (h : ∀ entry ∈ entries, (0 : UInt8) ∉ entry) (padding : ℕ) :
    parseMavftpDirectoryEntries path (pageData entries padding) =
      entries.filterMap (readEntry path) := by
  rw [parseMavftpDirectoryEntries_eq, pageData]
  induction entries with
  | nil => exact entriesIn_zeros padding
  | cons raw entries ih =>
    obtain ⟨hraw, hentries⟩ := List.forall_mem_cons.mp h
    cases entries with
    | nil =>
      rw [List.intercalate_singleton, entriesIn_raw hraw, filterMap_cons_toList, List.filterMap_nil,
        List.append_nil]
      rfl
    | cons next entries =>
      rw [List.intercalate_cons_cons, List.append_assoc, List.append_assoc, List.singleton_append,
        decodeUnits_append_zero, entriesIn_append, ih hentries,
        entriesIn_one _ (zero_notMem_decodeUnits hraw), filterMap_cons_toList (readEntry path) raw]
      rfl

/-! ## The server -/

def acknowledging (data : Bytes) : MavftpPayload where
  seqNumber := 0
  session := 0
  opcode := MAV_FTP_OPCODE.ACK
  size := data.length
  reqOpcode := MAV_FTP_OPCODE.LIST_DIRECTORY
  burstComplete := 0
  offset := 0
  data

namespace RemoteDirectory

/-- The answer to the last of the requests; past the end it is the end-of-file NAK. The offset of a
request has 32 bits. -/
def answer (directory : RemoteDirectory) (chunking : Chunking directory) (sent : List Request) :
    Except MavftpError MavftpPayload :=
  let index := (sent.getLast?.map Request.offset).getD 0 % 4294967296
  if index < directory.entries.length then
    .ok (acknowledging (pageData ((directory.entries.drop index).take (chunking.count sent index))
      (chunking.padding sent index)))
  else .error (.request MAV_FTP_ERR.EOF none)

def serving (directory : RemoteDirectory) (chunking : Chunking directory) : Conversation where
  ensureSupport _ := .ok ()
  hasVehicle _ := true
  answer := directory.answer chunking
  burst _ := .ok []
  burstActive _ := false
  aborted _ := false
  linkDropped _ := false

variable {directory : RemoteDirectory} {path : Text}

def readable (directory : RemoteDirectory) (path : Text) : List MavftpDirectoryEntry :=
  directory.entries.filterMap (readEntry path)

theorem sendUntilEof_serving (path : Text) (chunking : Chunking directory) (index : ℕ)
    (hindex : index ≤ directory.entries.length) (s : RemoteSession) :
    ∃ t sent, (directory.serving chunking).sendUntilEof
        (pathRequest MAV_FTP_OPCODE.LIST_DIRECTORY index (encodeText path)) s =
      (.resolved (if index < directory.entries.length then
        some (acknowledging (pageData
          ((directory.entries.drop index).take (chunking.count sent index))
          (chunking.padding sent index)))
      else none), t) := by
  have hindexed := directory.indexed
  let request := pathRequest MAV_FTP_OPCODE.LIST_DIRECTORY index (encodeText path)
  have hlast : ((s.sent ++ [request]).getLast?.map Request.offset).getD 0 % 4294967296 = index := by
    rw [List.getLast?_concat, Option.map_some, Option.getD_some]
    exact Nat.mod_eq_of_lt (hindex.trans_lt hindexed)
  refine ⟨(directory.serving chunking).afterSend request s, s.sent ++ [request], ?_⟩
  have hanswer : (directory.serving chunking).answer (s.sent ++ [request]) =
      if index < directory.entries.length then
        .ok (acknowledging (pageData ((directory.entries.drop index).take
          (chunking.count (s.sent ++ [request]) index))
          (chunking.padding (s.sent ++ [request]) index)))
      else .error (.request MAV_FTP_ERR.EOF none) := by
    change directory.answer chunking _ = _
    rw [answer, hlast]
  rw [Conversation.sendUntilEof_eq, if_neg (by simp [serving]), hanswer]
  by_cases hlt : index < directory.entries.length
  · rw [if_pos hlt, if_pos hlt]
  · rw [if_neg hlt, if_neg hlt]
    rfl

variable {entries : List MavftpDirectoryEntry}

theorem listLoop_serving (path : Text) (chunking : Chunking directory) (turns : ℕ)
    (hlength : entries.length ≤ directory.entries.length) (s : RemoteSession) :
    ∃ t sent, (directory.serving chunking).listLoop path (turns + 1) entries s =
      if ((directory.entries.drop entries.length).take
          (chunking.count sent entries.length)).filterMap (readEntry path) = [] then
        (.resolved entries, t)
      else
        (directory.serving chunking).listLoop path turns
          (entries ++ ((directory.entries.drop entries.length).take
            (chunking.count sent entries.length)).filterMap (readEntry path)) t := by
  obtain ⟨t, sent, hsend⟩ := sendUntilEof_serving path chunking entries.length hlength s
  refine ⟨t, sent, ?_⟩
  rw [Conversation.listLoop]
  dsimp only
  rw [bind_of_resolved hsend]
  by_cases hlt : entries.length < directory.entries.length
  · rw [if_pos hlt]
    dsimp only [acknowledging]
    rw [parse_pageData fun entry hentry =>
      directory.noZero entry (List.mem_of_mem_drop (List.mem_of_mem_take hentry))]
    split <;> rfl
  · rw [if_neg hlt, List.drop_of_length_le (by omega), List.take_nil, List.filterMap_nil,
      if_pos rfl]
    rfl

/-! ## The listing comes to its end -/

theorem listLoop_resolves (path : Text) (chunking : Chunking directory) (turns : ℕ)
    (hlength : entries.length ≤ directory.entries.length)
    (hturns : directory.entries.length < turns + entries.length) (s : RemoteSession) :
    ∃ listing t, (directory.serving chunking).listLoop path turns entries s =
      (.resolved listing, t) := by
  induction turns generalizing entries s with
  | zero => omega
  | succ turns ih =>
    obtain ⟨t, sent, hturn⟩ := listLoop_serving path chunking turns hlength s
    generalize chunking.count sent entries.length = count at hturn
    rw [hturn]
    split
    · exact ⟨entries, t, rfl⟩
    · next hne =>
      have hpos := List.length_pos_iff.mpr hne
      have hmost := List.length_filterMap_le (readEntry path)
        ((directory.entries.drop entries.length).take count)
      have htake := List.length_take_le' count (directory.entries.drop entries.length)
      rw [List.length_drop] at htake
      refine ih ?_ ?_ t
      · rw [List.length_append]
        omega
      · rw [List.length_append]
        omega

/-! ## Readable entries first -/

def ReadableFirst (directory : RemoteDirectory) (path : Text) : Prop :=
  directory.entries.Pairwise fun a b => (readEntry path b).isSome = true → (readEntry path a).isSome

theorem filterMap_drop_take {raws : List Bytes}
    (h : raws.Pairwise fun a b => (readEntry path b).isSome = true → (readEntry path a).isSome)
    (index count : ℕ) :
    ((raws.drop index).take count).filterMap (readEntry path) =
      ((raws.filterMap (readEntry path)).drop index).take count := by
  induction raws generalizing index count with
  | nil => simp
  | cons raw raws ih =>
    obtain ⟨hraw, hraws⟩ := List.pairwise_cons.mp h
    cases hread : readEntry path raw with
    | none =>
      have hnone : ∀ x ∈ raw :: raws, readEntry path x = none := by
        refine List.forall_mem_cons.mpr ⟨hread, fun x hx => ?_⟩
        by_contra hsome
        have := hraw x hx (Option.isSome_iff_ne_none.mpr hsome)
        rw [hread] at this
        cases this
      rw [List.filterMap_eq_nil_iff.mpr hnone, List.drop_nil, List.take_nil]
      exact List.filterMap_eq_nil_iff.mpr fun x hx =>
        hnone x (List.mem_of_mem_drop (List.mem_of_mem_take hx))
    | some entry =>
      rw [List.filterMap_cons_some hread]
      cases index with
      | succ index => exact ih hraws index count
      | zero =>
        cases count with
        | zero => rfl
        | succ count =>
          have := ih hraws 0 count
          simp only [List.drop_zero] at this ⊢
          rw [List.take_succ_cons, List.take_succ_cons, List.filterMap_cons_some hread, this]

theorem listLoop_readable (hfirst : directory.ReadableFirst path) (chunking : Chunking directory)
    (turns : ℕ) (hentries : entries <+: directory.readable path)
    (hturns : directory.entries.length < turns + entries.length) (s : RemoteSession) :
    ((directory.serving chunking).listLoop path turns entries s).1 =
      .resolved (directory.readable path) := by
  have hall : (directory.readable path).length ≤ directory.entries.length :=
    List.length_filterMap_le _ _
  induction turns generalizing entries s with
  | zero =>
    have := hentries.length_le
    omega
  | succ turns ih =>
    have hlength := hentries.length_le.trans hall
    obtain ⟨t, sent, hturn⟩ := listLoop_serving path chunking turns hlength s
    have hcount := chunking.positive sent entries.length
    generalize chunking.count sent entries.length = count at hturn hcount
    obtain ⟨rest, hrest⟩ := hentries
    have hdrop : (directory.readable path).drop entries.length = rest := by
      rw [← hrest, List.drop_left]
    rw [hturn, filterMap_drop_take hfirst, ← readable, hdrop]
    split
    · next hnil =>
      rcases List.take_eq_nil_iff.mp hnil with hzero | hnil
      · omega
      · rw [← hrest, hnil, List.append_nil]
    · next hne =>
      have hpos := List.length_pos_iff.mpr hne
      refine ih ?_ ?_ t
      · rw [← hrest]
        exact (List.prefix_append_right_inj entries).mpr (List.take_prefix count rest)
      · rw [List.length_append]
        omega

/-! ## One entry a reply -/

def oneByOne (directory : RemoteDirectory) : Chunking directory where
  count _ _ := 1
  padding _ _ := 0
  positive _ _ := Nat.one_pos
  fits _ index hindex := by
    rw [List.take_one_drop_eq_of_lt_length hindex, pageData, List.intercalate_singleton,
      List.replicate_zero, List.append_nil]
    exact directory.fits _ (List.getElem_mem hindex)

theorem listLoop_oneByOne (turns : ℕ) {listing : List MavftpDirectoryEntry} {s t : RemoteSession}
    (hlength : entries.length ≤ directory.entries.length)
    (hfirst : ∀ raw ∈ directory.entries.take entries.length, (readEntry path raw).isSome = true)
    (h : (directory.serving directory.oneByOne).listLoop path turns entries s = (.resolved listing, t)) :
    listing.length ≤ directory.entries.length ∧
      ∀ raw ∈ directory.entries.take listing.length, (readEntry path raw).isSome = true := by
  induction turns generalizing entries s with
  | zero => cases h
  | succ turns ih =>
    obtain ⟨u, sent, hturn⟩ := listLoop_serving path directory.oneByOne turns hlength s
    rw [hturn] at h
    split at h
    · cases h
      exact ⟨hlength, hfirst⟩
    · next hne =>
      change ¬ ((directory.entries.drop entries.length).take 1).filterMap (readEntry path) = []
        at hne
      change (directory.serving directory.oneByOne).listLoop path turns (entries ++
        ((directory.entries.drop entries.length).take 1).filterMap (readEntry path)) u = _ at h
      have hlt : entries.length < directory.entries.length := by
        by_contra hge
        rw [List.drop_of_length_le (by omega)] at hne
        exact hne rfl
      rw [List.take_one_drop_eq_of_lt_length hlt, List.get_eq_getElem] at h hne
      cases hread : readEntry path (directory.entries[entries.length]) with
      | none => exact absurd (by simp [hread]) hne
      | some entry =>
        rw [List.filterMap_cons_some hread, List.filterMap_nil] at h
        refine ih ?_ ?_ h
        · rw [List.length_append, List.length_singleton]
          omega
        · rw [List.length_append, List.length_singleton, List.take_add_one,
            List.getElem?_eq_getElem hlt]
          intro raw hraw
          rcases List.mem_append.mp hraw with hraw | hraw
          · exact hfirst raw hraw
          · rw [Option.toList_some, List.mem_singleton] at hraw
            rw [hraw, hread]
            rfl

theorem readableFirst_of_length {count : ℕ} (hcount : count ≤ directory.entries.length)
    (hfirst : ∀ raw ∈ directory.entries.take count, (readEntry path raw).isSome = true)
    (hall : (directory.readable path).length = count) : directory.ReadableFirst path := by
  have hfront : ((directory.entries.take count).filterMap (readEntry path)).length = count := by
    rw [List.length_filterMap_eq_countP, List.countP_eq_length.mpr hfirst, List.length_take]
    omega
  rw [readable, ← List.take_append_drop count directory.entries, List.filterMap_append,
    List.length_append, hfront, Nat.add_eq_left, List.length_eq_zero_iff,
    List.filterMap_eq_nil_iff] at hall
  rw [ReadableFirst, ← List.take_append_drop count directory.entries]
  refine List.pairwise_append.mpr ⟨?_, ?_, fun a ha b _ _ => hfirst a ha⟩
  · exact List.pairwise_of_forall_mem_list fun a ha b _ _ => hfirst a ha
  · refine List.pairwise_of_forall_mem_list fun a _ b hb hsome => ?_
    rw [hall b hb] at hsome
    cases hsome

/-! ## The listing -/

/-- A listing is over after as many turns as there are entries, and one more. It gives every
readable entry once, however the directory is cut into replies, if and only if no entry that cannot
be read stands before one that can. -/
theorem listing_exact_iff (localeCompare : Text → Text → ℤ) (directory : RemoteDirectory)
    (path : Text) :
    (∀ (chunking : Chunking directory) (turns : ℕ) (s : RemoteSession),
        directory.entries.length < turns → ∃ listing t,
          (directory.serving chunking).listRemoteDirectoryUnlocked localeCompare turns path s =
            (.resolved listing, t)) ∧
      ((∀ (chunking : Chunking directory) (turns : ℕ) (s : RemoteSession),
          directory.entries.length < turns →
            ((directory.serving chunking).listRemoteDirectoryUnlocked localeCompare turns path
                s).1 =
              .resolved (sortMavftpDirectoryEntries localeCompare
                (directory.readable (normalizeMavftpPath path)))) ↔
        directory.ReadableFirst (normalizeMavftpPath path)) := by
  have hlist (chunking : Chunking directory) (turns : ℕ) (s : RemoteSession)
      (hturns : directory.entries.length < turns) : ∃ listing t,
      (directory.serving chunking).listLoop (normalizeMavftpPath path) turns [] s =
        (.resolved listing, t) ∧
      (directory.serving chunking).listRemoteDirectoryUnlocked localeCompare turns path s =
        (.resolved (sortMavftpDirectoryEntries localeCompare listing), t) := by
    have hnone : ([] : List MavftpDirectoryEntry).length ≤ directory.entries.length :=
      Nat.zero_le _
    obtain ⟨listing, t, hloop⟩ :=
      listLoop_resolves (normalizeMavftpPath path) chunking turns hnone hturns s
    refine ⟨listing, t, hloop, ?_⟩
    have hsupport : (directory.serving chunking).ensuringSupport s = (.resolved (), s) := rfl
    rw [Conversation.listRemoteDirectoryUnlocked, bind_of_resolved hsupport,
      bind_of_resolved hloop]
    rfl
  refine ⟨fun chunking turns s hturns => ?_, fun h => ?_, fun hfirst chunking turns s hturns => ?_⟩
  · obtain ⟨listing, t, -, hrun⟩ := hlist chunking turns s hturns
    exact ⟨_, t, hrun⟩
  · obtain ⟨listing, t, hloop, hrun⟩ := hlist directory.oneByOne (directory.entries.length + 1)
      ⟨[], true⟩ (Nat.lt_succ_self _)
    have hexact := h directory.oneByOne (directory.entries.length + 1) ⟨[], true⟩
      (Nat.lt_succ_self _)
    rw [hrun] at hexact
    have hlength := congrArg List.length (Outcome.resolved.inj hexact)
    rw [sortMavftpDirectoryEntries, sortMavftpDirectoryEntries, List.length_insertionSort,
      List.length_insertionSort] at hlength
    obtain ⟨hle, hfirst⟩ := listLoop_oneByOne _ (Nat.zero_le _) (by simp) hloop
    exact readableFirst_of_length hle hfirst hlength.symm
  · obtain ⟨listing, t, hloop, hrun⟩ := hlist chunking turns s hturns
    have hreadable := listLoop_readable hfirst chunking turns List.nil_prefix hturns s
    rw [hloop] at hreadable
    rw [hrun, Outcome.resolved.inj hreadable]

def skippedThenFile : RemoteDirectory where
  entries := [[0x53], [0x46, 0x61]]
  noZero := by decide
  fits := by decide
  indexed := by decide

/-- The reply with the skip entry alone ends the listing, and the file is missing from it. -/
theorem skipped_entry_ends_listing :
    ∃ (chunking : Chunking skippedThenFile) (turns : ℕ) (s : RemoteSession),
      skippedThenFile.entries.length < turns ∧
        ((skippedThenFile.serving chunking).listRemoteDirectoryUnlocked (fun _ _ => 0) turns
            (units "/APM") s).1 ≠
          .resolved (sortMavftpDirectoryEntries (fun _ _ => 0)
            (skippedThenFile.readable (normalizeMavftpPath (units "/APM")))) := by
  refine ⟨oneByOne skippedThenFile, 3, ⟨[], true⟩, by decide, fun h => ?_⟩
  have hempty : ((skippedThenFile.serving skippedThenFile.oneByOne).listRemoteDirectoryUnlocked
      (fun _ _ => 0) 3 (units "/APM") ⟨[], true⟩).1 = .resolved [] := rfl
  rw [hempty] at h
  have hlength := congrArg List.length (Outcome.resolved.inj h)
  rw [sortMavftpDirectoryEntries, List.length_insertionSort] at hlength
  exact absurd hlength (by decide)

end RemoteDirectory
end ArduConfigurator.Mavftp
