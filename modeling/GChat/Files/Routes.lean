import GChat.Files.Codec

/-!
# Frames for a joined network

The page puts the network before the identifier of a file. The service takes it off, writes the
frame again for the service of that network and hands it on.
-/

namespace GChat

namespace Files

open Foundation

/-- The two sides of the first colon. -/
def splitOnce (id : String) : Option (String × String) :=
  match id.toList.dropWhile (· ≠ ':') with
  | [] => none
  | _ :: rest => some (String.ofList (id.toList.takeWhile (· ≠ ':')), String.ofList rest)

/-- A service with the networks it has joined. The last field is its file cache. -/
structure Node (ι : Type) where
  instanceId : String
  updating : Bool
  permitted : Bool
  unlocked : Bool
  networks : String → Option ι
  piece : FileIo → List UInt8 → Except String (List UInt8)

/-- Whether a service answers frames. -/
def Node.Answers {ι : Type} (node : Node ι) : Prop :=
  node.updating = false ∧ node.permitted = true ∧ node.unlocked = true

section

variable {ι : Type} (world : ι → Node ι)

/-- The answer to a frame. The first argument bounds the number of services it passes. -/
def filePieceIo : ℕ → ι → List UInt8 → Except String (List UInt8)
  | 0, _, _ => .error "Network unavailable"
  | passes + 1, place, sent => do
      refuse (world place).updating
        "This instance is preparing an update. Retry after it restarts."
      refuse (!(world place).permitted) "File conversations are not permitted"
      let (header, bytes) ← decodeIo sent
      refuse (header.instanceId ≠ (world place).instanceId)
        "File request belongs to another instance"
      match splitOnce header.id with
      | some (network, handle) => do
          refuse (!(world place).unlocked) "Unlock this instance to use files"
          let child ← okOr ((world place).networks network) "Network unavailable"
          let routed ← encodeIo
            { header with id := handle, instanceId := (world child).instanceId } bytes
          filePieceIo passes child routed
      | none => do
          refuse (!header.upload && !bytes.isEmpty) "Download request contains unexpected bytes"
          refuse (!(world place).unlocked) "Unlock this instance to use files"
          (world place).piece header bytes

end

/-- What the page sends in place of a frame when the file belongs to a network. -/
def networkFrame (network : String) (sent : List UInt8) : Option (Except String (List UInt8)) :=
  let length := fromBigEndian ((sent.drop 6).take 2)
  ((fromUtf8 ((sent.drop 8).take length)).bind fun text => readHeader text.toList).map
    fun header => encodeFileIo
      ⟨header.instanceId, network ++ ":" ++ header.id, header.piece.toNat, header.upload⟩
      (sent.drop (8 + length))

/-! ### Splitting -/

theorem splitOnce_eq_none {id : String} : splitOnce id = none ↔ ':' ∉ id.toList := by
  unfold splitOnce
  constructor
  · intro h hmem
    split at h
    next hdrop =>
      have hall := List.dropWhile_eq_nil_iff.mp hdrop ':' hmem
      exact absurd hall (by decide)
    · cases h
  · intro h
    have hdrop : id.toList.dropWhile (· ≠ ':') = [] := by
      refine List.dropWhile_eq_nil_iff.mpr fun c hc => decide_eq_true fun hcolon => h ?_
      rw [← hcolon]
      exact hc
    rw [hdrop]

theorem splitOnce_append {network : String} (h : ':' ∉ network.toList) (handle : String) :
    splitOnce (network ++ ":" ++ handle) = some (network, handle) := by
  have hall : ∀ c ∈ network.toList, decide (c ≠ ':') = true := by
    intro c hc
    refine decide_eq_true fun hcolon => h ?_
    rw [← hcolon]
    exact hc
  have hid : (network ++ ":" ++ handle).toList = network.toList ++ ':' :: handle.toList := by
    simp
  unfold splitOnce
  rw [hid, List.dropWhile_append_of_pos hall, List.takeWhile_append_of_pos hall,
    List.dropWhile_cons_of_neg (by simp), List.takeWhile_cons_of_neg (by simp), List.append_nil,
    String.ofList_toList]
  dsimp only
  rw [String.ofList_toList]

theorem splitOnce_eq_some {id network handle : String} (h : splitOnce id = some (network, handle)) :
    id = network ++ ":" ++ handle ∧ ':' ∉ network.toList := by
  unfold splitOnce at h
  split at h
  · cases h
  next c rest hdrop =>
    injection h with h
    injection h with hnetwork hhandle
    have hc : c = ':' := by
      have hhead := List.head?_dropWhile_not (fun c => decide (c ≠ ':')) id.toList
      rw [hdrop, List.head?_cons] at hhead
      by_contra hne
      simp [hne] at hhead
    subst hnetwork hhandle hc
    constructor
    · apply String.toList_injective
      have hsplit := List.takeWhile_append_dropWhile (p := fun c => decide (c ≠ ':'))
        (l := id.toList)
      rw [hdrop] at hsplit
      simpa using hsplit.symm
    · rw [String.toList_ofList]
      intro hmem
      have hcolon := List.mem_takeWhile_imp hmem
      exact absurd hcolon (by decide)

/-! ### Routes -/

section

variable {ι : Type} (world : ι → Node ι)

/-- A file that is named at one service belongs to another one: each service on the way answers
and knows the network that is named first, and the header that it writes for it fits. -/
inductive Delivers (piece : UInt32) (upload : Bool) : ι → String → ι → String → Prop
  | here {place : ι} {id : String} (hanswers : (world place).Answers) (hid : ':' ∉ id.toList) :
      Delivers piece upload place id place id
  | through {place child owner : ι} {network id handle : String}
      (hanswers : (world place).Answers) (hnetwork : ':' ∉ network.toList)
      (hchild : (world place).networks network = some child)
      (hfits : (utf8 (String.ofList
        (FileIo.text ⟨(world child).instanceId, id, piece, upload⟩))).length ≤ 512)
      (rest : Delivers piece upload child id owner handle) :
      Delivers piece upload place (network ++ ":" ++ id) owner handle

variable {world}

/-- What a service that answers does with a frame. -/
theorem filePieceIo_eq_ok {passes : ℕ} {place : ι} {sent out : List UInt8} :
    filePieceIo world (passes + 1) place sent = .ok out ↔
      (world place).Answers ∧ ∃ header bytes, decodeIo sent = .ok (header, bytes) ∧
        header.instanceId = (world place).instanceId ∧
        ((∃ network handle child routed, splitOnce header.id = some (network, handle) ∧
            (world place).networks network = some child ∧
            encodeIo { header with id := handle, instanceId := (world child).instanceId } bytes =
              .ok routed ∧ filePieceIo world passes child routed = .ok out) ∨
          splitOnce header.id = none ∧ (header.upload = true ∨ bytes = []) ∧
            (world place).piece header bytes = .ok out) := by
  rw [filePieceIo]
  constructor
  · intro h
    obtain ⟨_, hupdating, h⟩ := bind_eq_ok.mp h
    obtain ⟨_, hpermitted, h⟩ := bind_eq_ok.mp h
    obtain ⟨⟨header, bytes⟩, hread, h⟩ := bind_eq_ok.mp h
    obtain ⟨_, hinstance, h⟩ := bind_eq_ok.mp h
    rw [refuse_eq_ok] at hupdating hpermitted hinstance
    rw [decide_eq_false_iff_not, not_not] at hinstance
    cases hsplit : splitOnce header.id with
    | none =>
        rw [hsplit] at h
        obtain ⟨_, hbytes, h⟩ := bind_eq_ok.mp h
        obtain ⟨_, hunlocked, h⟩ := bind_eq_ok.mp h
        rw [refuse_eq_ok] at hbytes hunlocked
        refine ⟨⟨hupdating, by simpa using hpermitted, by simpa using hunlocked⟩, header, bytes,
          hread, hinstance, Or.inr ⟨hsplit, ?_, h⟩⟩
        cases hupload : header.upload with
        | true => exact Or.inl rfl
        | false =>
            rw [hupload] at hbytes
            exact Or.inr (by simpa using hbytes)
    | some parts =>
        rw [hsplit] at h
        obtain ⟨_, hunlocked, h⟩ := bind_eq_ok.mp h
        obtain ⟨child, hchild, h⟩ := bind_eq_ok.mp h
        obtain ⟨routed, hrouted, h⟩ := bind_eq_ok.mp h
        rw [refuse_eq_ok] at hunlocked
        rw [okOr_eq_ok] at hchild
        exact ⟨⟨hupdating, by simpa using hpermitted, by simpa using hunlocked⟩, header, bytes,
          hread, hinstance, Or.inl ⟨parts.1, parts.2, child, routed, hsplit, hchild, hrouted, h⟩⟩
  · rintro ⟨⟨hupdating, hpermitted, hunlocked⟩, header, bytes, hread, hinstance, hnext⟩
    rw [hupdating, hpermitted, hread]
    refine bind_eq_ok.mpr ⟨(), rfl, bind_eq_ok.mpr ⟨(), rfl, bind_eq_ok.mpr
      ⟨(header, bytes), rfl, bind_eq_ok.mpr ⟨(), ?_, ?_⟩⟩⟩⟩
    · rw [refuse_eq_ok, decide_eq_false_iff_not, not_not]
      exact hinstance
    · rcases hnext with ⟨network, handle, child, routed, hsplit, hchild, hrouted, h⟩ |
        ⟨hsplit, hbytes, h⟩
      · rw [hsplit]
        dsimp only
        rw [hunlocked]
        exact bind_eq_ok.mpr ⟨(), rfl, bind_eq_ok.mpr ⟨child, okOr_eq_ok.mpr hchild,
          bind_eq_ok.mpr ⟨routed, hrouted, h⟩⟩⟩
      · rw [hsplit]
        dsimp only
        rw [hunlocked]
        refine bind_eq_ok.mpr ⟨(), refuse_eq_ok.mpr ?_, h⟩
        rcases hbytes with hupload | hbytes
        · rw [hupload]
          rfl
        · rw [hbytes]
          simp

/-- An answered frame was delivered. -/
theorem delivers_of_answer {passes : ℕ} : ∀ {place : ι} {sent out : List UInt8},
    filePieceIo world passes place sent = .ok out →
      ∃ id piece upload bytes owner handle,
        decodeIo sent = .ok (⟨(world place).instanceId, id, piece, upload⟩, bytes) ∧
        Delivers world piece upload place id owner handle ∧ (upload = true ∨ bytes = []) ∧
        (world owner).piece ⟨(world owner).instanceId, handle, piece, upload⟩ bytes = .ok out := by
  induction passes with
  | zero =>
      intro place sent out h
      cases h
  | succ passes ih =>
      intro place sent out h
      rcases filePieceIo_eq_ok.mp h with ⟨hanswers, ⟨instanceId, id, piece, upload⟩, bytes, hread,
        hinstance, hnext⟩
      dsimp only at hinstance hnext
      subst hinstance
      rcases hnext with ⟨network, handle, child, routed, hsplit, hchild, hrouted, h⟩ |
        ⟨hsplit, hbytes, h⟩
      · rcases ih h with ⟨id', piece', upload', bytes', owner, handle', hread', hdelivers, hbytes,
          hpiece⟩
        rw [decodeIo_encodeIo hrouted] at hread'
        injection hread' with hread'
        injection hread' with hheader hpayload
        injection hheader with _ hid hsame hload
        subst hpayload hid hsame hload
        rcases splitOnce_eq_some hsplit with ⟨rfl, hnetwork⟩
        exact ⟨_, _, _, _, owner, handle', hread,
          .through hanswers hnetwork hchild (encodeIo_eq_ok_iff.mp hrouted).1 hdelivers, hbytes,
          hpiece⟩
      · exact ⟨_, _, _, _, place, id, hread, .here hanswers (splitOnce_eq_none.mp hsplit), hbytes,
          h⟩

theorem answer_of_delivers {piece : UInt32} {upload : Bool} {place owner : ι}
    {id handle : String} (h : Delivers world piece upload place id owner handle) :
    ∀ {sent bytes out : List UInt8},
      decodeIo sent = .ok (⟨(world place).instanceId, id, piece, upload⟩, bytes) →
      (upload = true ∨ bytes = []) →
      (world owner).piece ⟨(world owner).instanceId, handle, piece, upload⟩ bytes = .ok out →
      ∃ passes, filePieceIo world passes place sent = .ok out := by
  induction h with
  | here hanswers hid =>
      intro sent bytes out hread hbytes hpiece
      exact ⟨1, filePieceIo_eq_ok.mpr ⟨hanswers, _, bytes, hread, rfl,
        Or.inr ⟨splitOnce_eq_none.mpr hid, hbytes, hpiece⟩⟩⟩
  | @through place child owner network id handle hanswers hnetwork hchild hfits rest ih =>
      intro sent bytes out hread hbytes hpiece
      rcases decodeIo_eq_ok_iff.mp hread with ⟨_, _, _, hlength, _⟩
      have hrouted : encodeIo ⟨(world child).instanceId, id, piece, upload⟩ bytes = .ok _ :=
        encodeIo_eq_ok_iff.mpr ⟨hfits, hlength, rfl⟩
      rcases ih (decodeIo_encodeIo hrouted) hbytes hpiece with ⟨passes, h⟩
      exact ⟨passes + 1, filePieceIo_eq_ok.mpr ⟨hanswers, _, bytes, hread, rfl,
        Or.inl ⟨network, id, child, _, splitOnce_append hnetwork id, hchild, hrouted, h⟩⟩⟩

/-- A frame is answered exactly if it is for this service, every service on the way to the owner
of the file answers and can write the frame again, and the owner answers the piece; it is then
given the identifier without the networks, and the piece, the direction and the bytes of the
frame. -/
theorem frames_routed (place : ι) (sent out : List UInt8) :
    (∃ passes, filePieceIo world passes place sent = .ok out) ↔
      ∃ id piece upload bytes owner handle,
        decodeIo sent = .ok (⟨(world place).instanceId, id, piece, upload⟩, bytes) ∧
        Delivers world piece upload place id owner handle ∧ (upload = true ∨ bytes = []) ∧
        (world owner).piece ⟨(world owner).instanceId, handle, piece, upload⟩ bytes = .ok out := by
  constructor
  · rintro ⟨passes, h⟩
    exact delivers_of_answer h
  · rintro ⟨id, piece, upload, bytes, owner, handle, hread, hdelivers, hbytes, hpiece⟩
    exact answer_of_delivers hdelivers hread hbytes hpiece

/-! ### Frames of the page -/

/-- The page reads the frame it wrote and puts the network before the identifier. -/
theorem networkFrame_frame {page : PageIo} {bytes sent : List UInt8}
    (h : encodeFileIo page bytes = .ok sent) (network : String) :
    networkFrame network sent =
      some (encodeFileIo { page with id := network ++ ":" ++ page.id } bytes) := by
  rcases encodeFileIo_eq_ok_iff.mp h with ⟨piece, hpiece, hencode⟩
  obtain ⟨htext, hbytes, rfl⟩ := encodeIo_eq_ok_iff.mp hencode
  have hreads := reads_text ⟨page.instanceId, page.id, piece, page.upload⟩
  generalize utf8 (String.ofList (FileIo.text ⟨page.instanceId, page.id, piece, page.upload⟩)) =
    text at *
  have hsize : ((frame text bytes).drop 6).take 2 = toBigEndian16 text.length := rfl
  have hbehind : (frame text bytes).drop 8 = text ++ bytes := rfl
  unfold networkFrame
  rw [hsize, fromBigEndian_toBigEndian16 (by omega), hbehind]
  dsimp only
  rw [List.take_left, ← List.drop_drop, hbehind, List.drop_left, hreads, Option.map_some, hpiece]

/-- A frame of the page for a file of a joined network is answered as the service of the network
answers the same frame when it is written for that service. -/
theorem network_frames_answered {page : PageIo} {bytes sent routed : List UInt8}
    {network : String} (hnetwork : ':' ∉ network.toList)
    (hsent : encodeFileIo page bytes = .ok sent)
    (hrouted : networkFrame network sent = some (.ok routed)) (place : ι) (out : List UInt8) :
    (∃ passes, filePieceIo world passes place routed = .ok out) ↔
      (world place).Answers ∧ page.instanceId = (world place).instanceId ∧
        ∃ child direct, (world place).networks network = some child ∧
          encodeFileIo { page with instanceId := (world child).instanceId } bytes = .ok direct ∧
          ∃ passes, filePieceIo world passes child direct = .ok out := by
  rw [networkFrame_frame hsent, Option.some.injEq] at hrouted
  rcases encodeFileIo_eq_ok_iff.mp hrouted with ⟨piece, hpiece, hencode⟩
  dsimp only at hpiece hencode
  have hread := decodeIo_encodeIo hencode
  constructor
  · rintro ⟨passes, h⟩
    cases passes with
    | zero => cases h
    | succ passes =>
        rcases filePieceIo_eq_ok.mp h with ⟨hanswers, header, payload, hread', hinstance, hnext⟩
        rw [hread] at hread'
        injection hread' with hread'
        injection hread' with hheader hpayload
        subst hheader hpayload
        rcases hnext with ⟨network', handle, child, direct, hsplit, hchild, hdirect, h⟩ |
          ⟨hsplit, -⟩
        · rw [splitOnce_append hnetwork] at hsplit
          injection hsplit with hsplit
          injection hsplit with hname hhandle
          subst hname hhandle
          exact ⟨hanswers, hinstance, child, direct, hchild,
            encodeFileIo_eq_ok_iff.mpr ⟨piece, hpiece, hdirect⟩, passes, h⟩
        · rw [splitOnce_append hnetwork] at hsplit
          cases hsplit
  · rintro ⟨hanswers, hinstance, child, direct, hchild, hdirect, passes, h⟩
    rcases encodeFileIo_eq_ok_iff.mp hdirect with ⟨piece', hpiece', hdirect⟩
    dsimp only at hpiece' hdirect
    rw [UInt32.toNat_inj.mp (hpiece'.trans hpiece.symm)] at hdirect
    exact ⟨passes + 1, filePieceIo_eq_ok.mpr ⟨hanswers, _, bytes, hread, hinstance,
      Or.inl ⟨network, page.id, child, direct, splitOnce_append hnetwork page.id, hchild, hdirect,
        h⟩⟩⟩

/-- A service that joined the network `n`, and the service of that network, which stores what it
is given. -/
def sampleWorld (joined : Bool) : Node Bool where
  instanceId := if joined then "b" else "a"
  updating := false
  permitted := true
  unlocked := true
  networks := fun name => if !joined && name == "n" then some true else none
  piece := fun _ _ => .ok []

def samplePage (instanceId id : String) : PageIo := ⟨instanceId, id, 0, true⟩

theorem sample_sent (instanceId id : String)
    (h : (utf8 (String.ofList (FileIo.text ⟨instanceId, id, 0, true⟩))).length ≤ 512) :
    encodeFileIo (samplePage instanceId id) [7] =
      .ok (frame (utf8 (String.ofList (FileIo.text ⟨instanceId, id, 0, true⟩))) [7]) :=
  encodeFileIo_eq_ok_iff.mpr ⟨0, rfl, encodeIo_eq_ok_iff.mpr ⟨h, by decide, rfl⟩⟩

/-- The network stores the piece that the page sends to the file `0` of the network `n`. -/
theorem sample_answered :
    (∃ passes, filePieceIo sampleWorld passes false
      (frame (utf8 (String.ofList (FileIo.text ⟨"a", "n:0", 0, true⟩))) [7]) = .ok []) ↔
      (sampleWorld false).Answers ∧ "a" = (sampleWorld false).instanceId ∧
        ∃ child direct, (sampleWorld false).networks "n" = some child ∧
          encodeFileIo { samplePage "a" "0" with instanceId := (sampleWorld child).instanceId }
            [7] = .ok direct ∧
          ∃ passes, filePieceIo sampleWorld passes child direct = .ok [] := by
  have hsent := sample_sent "a" "0" (by decide)
  refine network_frames_answered (by decide) hsent ?_ false []
  rw [networkFrame_frame hsent]
  exact congrArg some (sample_sent "a" "n:0" (by decide))

end

end Files

end GChat
