import Gopher.L7.DataStream.Theorems
import Gopher.L7.Pgsql.Theorems
import Mathlib.Data.List.Infix

namespace Gopher.L7.Pgsql

open Gopher.L7 DataStream

def StartsWithTag (bytes : List UInt8) : Prop :=
  ∃ tag rest, bytes = tag :: rest ∧ containsPgsqlTag tag = true

-- However the bytes are cut and whenever they are parsed, the same frames are left.
def SegmentationIndependent (bytes : List UInt8) (timestampNs : UInt64) : Prop :=
  ∀ (junk junk' : ℕ → Bool) (chunks chunks' : List Chunk) (last last' : DataStream PgsqlRegularMsg),
    bytesOf chunks = bytes → bytesOf chunks' = bytes →
    Delivers (pgsql junk) timestampNs chunks .init last →
    Delivers (pgsql junk') timestampNs chunks' .init last' →
    last.frameBufs.frameBufSize ≤ FRAME_BUF_SIZE → last'.frameBufs.frameBufSize ≤ FRAME_BUF_SIZE →
    last.frameBufs.contents = last'.frameBufs.contents

theorem unread_setPos (raw : RawData) (pos : ℕ) : (raw.setPos pos).unread = raw.data.drop pos := by
  simp only [RawData.setPos, RawData.unread]
  by_cases hpos : pos ≤ raw.data.length
  · rw [Nat.min_eq_left hpos]
  · rw [Nat.min_eq_right (by omega), List.drop_of_length_le (Nat.le_refl _),
      List.drop_of_length_le (by omega)]

theorem unread_suffix (raw : RawData) : raw.unread <:+ raw.data := List.drop_suffix _ _

theorem boundary_some {raw : RawData} {pos : ℕ} (h : pgsqlFindFrameBoundary raw = some pos) :
    (raw.setPos pos).unread <:+ raw.unread ∧ StartsWithTag (raw.setPos pos).unread := by
  obtain ⟨i, hfind, rfl⟩ := Option.map_eq_some_iff.mp h
  have hunread : (raw.setPos (raw.currentPos + i)).unread = raw.unread.drop i := by
    rw [unread_setPos, RawData.unread, List.drop_drop]
  obtain ⟨hlt, htag, -⟩ := List.findIdx?_eq_some_iff_getElem.mp hfind
  rw [hunread]
  refine ⟨List.drop_suffix _ _, raw.unread[i], raw.unread.drop (i + 1), ?_, htag⟩
  exact List.drop_eq_getElem_cons hlt

theorem boundary_of_tag {raw : RawData} (h : StartsWithTag raw.unread) :
    pgsqlFindFrameBoundary raw = some raw.currentPos := by
  obtain ⟨tag, rest, hunread, htag⟩ := h
  simp only [pgsqlFindFrameBoundary, hunread, List.findIdx?_cons, htag]
  rfl

theorem parse_of_frame (junk : ℕ → Bool) (calls : ℕ) {raw : RawData}
    (h : ParsesAsFrame raw.unread) :
    ∃ frame pos, (pgsql junk).parseFrame calls raw = (.success, some frame, pos) := by
  have hok := (parseFrame_isOk_of_unread (junk calls) raw).mpr h
  rcases hparse : pgsqlParseFrame (junk calls) raw with ⟨outcome, next⟩
  cases outcome with
  | error state => simp [hparse, Except.isOk, Except.toBool] at hok
  | ok msg => exact ⟨msg, next.currentPos, by simp only [pgsql, hparse]⟩

theorem parse_of_noFrame (junk : ℕ → Bool) (calls : ℕ) {raw : RawData}
    (h : ¬ParsesAsFrame raw.unread) : ((pgsql junk).parseFrame calls raw).2.1 = none := by
  have hok := mt (parseFrame_isOk_of_unread (junk calls) raw).mp h
  rcases hparse : pgsqlParseFrame (junk calls) raw with ⟨outcome, next⟩
  cases outcome with
  | error state => simp only [pgsql, hparse]
  | ok msg => simp [hparse, Except.isOk, Except.toBool] at hok

theorem parse_of_short (junk : ℕ → Bool) (calls : ℕ) {raw : RawData}
    (h : raw.unread.length ≤ 1) :
    (pgsql junk).parseFrame calls raw = (.needsMoreData, none, raw.data.length) := by
  obtain ⟨next, hparse, hpos⟩ := parseFrame_of_short (junk calls) h
  simp only [pgsql, hparse, hpos]

-- The chunk on top has at most one unread byte, the others at most one byte.
structure ShortChunks (stream : DataStream PgsqlRegularMsg) : Prop where
  top : ∀ raw rest, stream.rawBufs = raw :: rest → raw.unread.length ≤ 1
  later : ∀ raw ∈ stream.rawBufs.tail, raw.data.length ≤ 1

theorem length_unread_le (raw : RawData) : raw.unread.length ≤ raw.data.length :=
  (unread_suffix raw).length_le

theorem ShortChunks.pop {rest : List RawData} {frameBufs : FrameBuf PgsqlRegularMsg}
    {type : ProtoType} {calls : ℕ} (h : ∀ other ∈ rest, other.data.length ≤ 1) :
    ShortChunks ⟨rest, frameBufs, type, calls⟩ := by
  refine ⟨fun other later hrest => ?_, fun other hother => h other (List.mem_of_mem_tail hother)⟩
  have hother := h other (by dsimp only at hrest; simp [hrest])
  have hle := length_unread_le other
  omega

-- Byte by byte nothing is ever parsed: the one byte in hand is read before more is
-- asked for, and the next chunk is put behind it.
theorem parse_short {junk : ℕ → Bool} {fuel : ℕ} {stream last : DataStream PgsqlRegularMsg}
    (hshort : ShortChunks stream)
    (h : dataStreamParseFrames (pgsql junk) fuel stream = some last) :
    ShortChunks last ∧ last.rawBufs.length ≤ 1 ∧ last.frameBufs = stream.frameBufs := by
  refine dataStreamParseFrames_post
    (fun state => ShortChunks state.1 ∧ state.1.frameBufs = stream.frameBufs)
    (fun last => ShortChunks last ∧ last.rawBufs.length ≤ 1 ∧ last.frameBufs = stream.frameBufs)
    ?_ ⟨hshort, rfl⟩ h
  rintro ⟨other, label⟩ ⟨⟨htop, hlater⟩, hframes⟩
  dsimp only at htop hlater hframes
  cases hraw : other.rawBufs with
  | nil =>
      rw [parseRound_nil _ label hraw]
      exact ⟨⟨htop, hlater⟩, by simp [hraw], hframes⟩
  | cons raw rest =>
      have hone := htop raw rest hraw
      rw [hraw, List.tail_cons] at hlater
      cases label with
      | next =>
          rw [parseRound_next _ hraw]
          cases hpos : (pgsql junk).findFrameBoundary raw with
          | none => exact ⟨ShortChunks.pop hlater, hframes⟩
          | some pos =>
              have hsuffix := (boundary_some hpos).1.length_le
              refine ⟨⟨fun top later hrest => ?_, hlater⟩, hframes⟩
              cases hrest
              omega
      | again =>
          have hparse := parse_of_short junk other.calls hone
          obtain ⟨src, later, rfl, hround⟩ | ⟨rfl, hround⟩ :=
            parseRound_needsMore (pgsql junk) hraw hparse
          · rw [hround]
            refine ⟨⟨fun top later hrest => ?_, fun top htop =>
              hlater top (List.mem_cons_of_mem _ htop)⟩, hframes⟩
            cases hrest
            rw [unread_overlay, unread_setPos, List.drop_length, List.nil_append]
            exact hlater _ List.mem_cons_self
          · rw [hround]
            refine ⟨⟨fun top later hrest => ?_, by simp⟩, by simp, hframes⟩
            cases hrest
            exact hone

def singles (bytes : List UInt8) : List Chunk := bytes.map fun byte => ⟨[byte], true⟩

theorem bytesOf_singles (bytes : List UInt8) : bytesOf (singles bytes) = bytes := by
  simp [bytesOf, singles, List.flatMap_map]

theorem ShortChunks.add {stream : DataStream PgsqlRegularMsg} (hshort : ShortChunks stream)
    {data : List UInt8} (hdata : data.length ≤ 1) (timestampNs : UInt64) :
    ShortChunks { stream with rawBufs := stream.rawBufs ++ [.create data timestampNs] } := by
  obtain ⟨htop, hlater⟩ := hshort
  cases hraw : stream.rawBufs with
  | nil =>
      refine ⟨fun raw rest hrest => ?_, by simp⟩
      simp only [List.nil_append, List.cons.injEq] at hrest
      rw [← hrest.1]
      exact hdata
  | cons raw rest =>
      rw [hraw, List.tail_cons] at hlater
      refine ⟨fun other later hrest => ?_, fun other hother => ?_⟩
      · simp only [List.cons_append, List.cons.injEq] at hrest
        rw [← hrest.1]
        exact htop raw rest hraw
      · simp only [List.cons_append, List.tail_cons, List.mem_append, List.mem_singleton] at hother
        rcases hother with hother | rfl
        · exact hlater other hother
        · exact hdata

-- Bytes that come one by one, each with a parse, only ever leave one of them pending.
theorem delivers_singles (junk : ℕ → Bool) (timestampNs : UInt64) (bytes : List UInt8)
    {stream : DataStream PgsqlRegularMsg} (hshort : ShortChunks stream)
    (hone : stream.rawBufs.length ≤ 1) :
    ∃ after, ShortChunks after ∧ after.rawBufs.length ≤ 1 ∧ after.frameBufs = stream.frameBufs ∧
      ∀ chunks last, Delivers (pgsql junk) timestampNs chunks after last →
        Delivers (pgsql junk) timestampNs (singles bytes ++ chunks) stream last := by
  induction bytes generalizing stream with
  | nil => exact ⟨stream, hshort, hone, rfl, fun _ _ h => h⟩
  | cons byte bytes ih =>
      have hadd := dataStreamAddRawData_of_lt stream [byte] timestampNs
        (Nat.lt_of_le_of_lt hone (show 1 < RAW_BUF_SIZE by decide))
      have hadded := hshort.add (show [byte].length ≤ 1 from Nat.le_refl 1) timestampNs
      obtain ⟨fuel, parsed, hparse⟩ := dataStreamParseFrames_finishes (pgsql junk)
        { stream with rawBufs := stream.rawBufs ++ [.create [byte] timestampNs] }
      obtain ⟨hshort', hone', hframes⟩ := parse_short hadded hparse
      obtain ⟨after, hafter, hlen, hsame, hrest⟩ := ih hshort' hone'
      exact ⟨after, hafter, hlen, hsame.trans hframes, fun chunks last h =>
        .parse hadd fuel hparse (hrest chunks last h)⟩

theorem shortChunks_init : ShortChunks .init := ⟨fun _ _ h => (by cases h), by simp [init]⟩

-- The frame lies ahead, on its own or behind a chunk with one unread byte, or it
-- has been parsed.
def FrameAhead (frame : List UInt8) (timestampNs : UInt64) (stream : DataStream PgsqlRegularMsg) :
    Prop :=
  1 ≤ stream.frameBufs.frameBufSize ∨
    (stream.frameBufs.frameBufSize = 0 ∧
      ((∃ raw, stream.rawBufs = [raw, .create frame timestampNs] ∧ raw.unread.length ≤ 1) ∨
        ∃ raw, stream.rawBufs = [raw] ∧ raw.unread = frame))

theorem parseRound_short {junk : ℕ → Bool} {frame : List UInt8} {timestampNs : UInt64}
    {stream : DataStream PgsqlRegularMsg} {raw : RawData} (label : Label)
    (hraw : stream.rawBufs = [raw, .create frame timestampNs]) (hone : raw.unread.length ≤ 1)
    (hsize : stream.frameBufs.frameBufSize = 0) :
    ∃ next, parseRound (pgsql junk) (stream, label) = .inl next ∧
      FrameAhead frame timestampNs next.1 := by
  cases label with
  | next =>
      rw [parseRound_next _ hraw]
      cases hpos : (pgsql junk).findFrameBoundary raw with
      | none => exact ⟨_, rfl, .inr ⟨hsize, .inr ⟨_, rfl, rfl⟩⟩⟩
      | some pos =>
          have hsuffix := (boundary_some hpos).1.length_le
          exact ⟨_, rfl, .inr ⟨hsize, .inl ⟨_, rfl, by omega⟩⟩⟩
  | again =>
      have hparse := parse_of_short junk stream.calls hone
      obtain ⟨src, later, hrest, hround⟩ | ⟨hrest, -⟩ :=
        parseRound_needsMore (pgsql junk) hraw hparse
      · cases hrest
        refine ⟨_, hround, .inr ⟨hsize, .inr ⟨_, rfl, ?_⟩⟩⟩
        rw [unread_overlay, unread_setPos, List.drop_length, List.nil_append]
        rfl
      · cases hrest

theorem parseRound_frame {junk : ℕ → Bool} {frame : List UInt8} {timestampNs : UInt64}
    {stream : DataStream PgsqlRegularMsg} {raw : RawData} (label : Label)
    (htag : StartsWithTag frame) (hframe : ParsesAsFrame frame) (hraw : stream.rawBufs = [raw])
    (hunread : raw.unread = frame) (hsize : stream.frameBufs.frameBufSize = 0) :
    ∃ next, parseRound (pgsql junk) (stream, label) = .inl next ∧
      FrameAhead frame timestampNs next.1 := by
  rw [← hunread] at htag hframe
  cases label with
  | next =>
      have hpos : (pgsql junk).findFrameBoundary raw = some raw.currentPos := boundary_of_tag htag
      rw [parseRound_next _ hraw, hpos]
      exact ⟨_, rfl, .inr ⟨hsize, .inr ⟨_, rfl, (unread_setPos raw _).trans hunread⟩⟩⟩
  | again =>
      obtain ⟨msg, pos, hparse⟩ := parse_of_frame junk stream.calls hframe
      have hround := parseRound_again (pgsql junk) hraw
      generalize parseRound (pgsql junk) (stream, .again) = outcome at hround ⊢
      cases hround with
      | pushed hparse' hpush hleft =>
          obtain ⟨-, -, hgrow⟩ := FrameBuf.pushFrameData_contents hpush
          exact ⟨_, rfl, .inl (by dsimp only; omega)⟩
      | full hparse' hpush =>
          simp [FrameBuf.pushFrameData, hsize, FRAME_BUF_SIZE] at hpush
      | dropped hparse' => simp [hparse] at hparse'
      | marked hparse' hflags => simp [hparse] at hparse'
      | overlaid hparse' hrest => cases hrest
      | waiting hparse' hrest => simp [hparse] at hparse'
      | failed hinvalid hmore hnone => simp [hparse] at hnone

-- A frame that comes as one chunk behind at most one unread byte is parsed.
theorem parse_frame {junk : ℕ → Bool} {timestampNs : UInt64} {frame : List UInt8} {fuel : ℕ}
    {stream last : DataStream PgsqlRegularMsg} (htag : StartsWithTag frame)
    (hframe : ParsesAsFrame frame) (hshort : ShortChunks stream)
    (hone : stream.rawBufs.length ≤ 1) (hsize : stream.frameBufs.frameBufSize = 0)
    (h : dataStreamParseFrames (pgsql junk) fuel
      { stream with rawBufs := stream.rawBufs ++ [.create frame timestampNs] } = some last) :
    1 ≤ last.frameBufs.frameBufSize := by
  refine dataStreamParseFrames_post (fun state => FrameAhead frame timestampNs state.1)
    (fun last => 1 ≤ last.frameBufs.frameBufSize) ?_ ?_ h
  · rintro ⟨other, label⟩ (hparsed | ⟨hzero, ⟨raw, hraw, hunread⟩ | ⟨raw, hraw, hunread⟩⟩)
    · have hround := parseRound_bounded (pgsql junk) label (.refl other)
      generalize parseRound (pgsql junk) (other, label) = outcome at hround ⊢
      cases outcome with
      | inl next => exact .inl (hparsed.trans hround.grows)
      | inr last => exact hparsed.trans hround.grows
    · obtain ⟨next, hround, hnext⟩ := parseRound_short label hraw hunread hzero
      rw [hround]
      exact hnext
    · obtain ⟨next, hround, hnext⟩ := parseRound_frame label htag hframe hraw hunread hzero
      rw [hround]
      exact hnext
  · refine .inr ⟨hsize, ?_⟩
    cases hraw : stream.rawBufs with
    | nil => exact .inr ⟨.create frame timestampNs, rfl, rfl⟩
    | cons raw rest =>
        have hnil : rest = [] := by
          simpa [hraw] using hone
        subst hnil
        exact .inl ⟨raw, rfl, hshort.top raw [] hraw⟩

-- No stretch of the bytes that begins with a tag is taken for a frame.
def NoFrameInside (bytes : List UInt8) : Prop :=
  ∀ stretch, stretch <:+: bytes → StartsWithTag stretch → ¬ParsesAsFrame stretch

-- The pending chunks are the end of what has been delivered.
def PendingOf (delivered : List UInt8) (stream : DataStream PgsqlRegularMsg) : Prop :=
  ∃ gone, delivered = gone ++ stream.rawBufs.flatMap RawData.data

theorem PendingOf.top {delivered : List UInt8} {stream : DataStream PgsqlRegularMsg} {raw : RawData}
    {rest : List RawData} (h : PendingOf delivered stream) (hraw : stream.rawBufs = raw :: rest) :
    ∃ gone, delivered = gone ++ (raw.data ++ rest.flatMap RawData.data) := by
  obtain ⟨gone, hgone⟩ := h
  exact ⟨gone, by rw [hgone, hraw, List.flatMap_cons]⟩

theorem parse_quiet {junk : ℕ → Bool} {delivered : List UInt8} {fuel : ℕ}
    {stream last : DataStream PgsqlRegularMsg} (hquiet : NoFrameInside delivered)
    (hpending : PendingOf delivered stream)
    (h : dataStreamParseFrames (pgsql junk) fuel stream = some last) :
    PendingOf delivered last ∧ last.frameBufs = stream.frameBufs := by
  refine dataStreamParseFrames_post
    (fun state => (PendingOf delivered state.1 ∧ state.1.frameBufs = stream.frameBufs) ∧
      (state.2 = .again → ∀ raw rest, state.1.rawBufs = raw :: rest → StartsWithTag raw.unread))
    (fun last => PendingOf delivered last ∧ last.frameBufs = stream.frameBufs) ?_
    ⟨⟨hpending, rfl⟩, fun h => by cases h⟩ h
  rintro ⟨other, label⟩ ⟨⟨hpending, hframes⟩, htag⟩
  dsimp only at hpending hframes htag
  cases hraw : other.rawBufs with
  | nil =>
      rw [parseRound_nil _ label hraw]
      exact ⟨hpending, hframes⟩
  | cons raw rest =>
      obtain ⟨gone, hgone⟩ := hpending.top hraw
      have hdropped : delivered = (gone ++ raw.data) ++ rest.flatMap RawData.data := by
        rw [hgone, List.append_assoc]
      cases label with
      | next =>
          rw [parseRound_next _ hraw]
          cases hpos : (pgsql junk).findFrameBoundary raw with
          | none => exact ⟨⟨⟨_, hdropped⟩, hframes⟩, fun h => by cases h⟩
          | some pos =>
              refine ⟨⟨⟨gone, hgone⟩, hframes⟩, fun _ top later hrest => ?_⟩
              cases hrest
              exact (boundary_some hpos).2
      | again =>
          have hinside : raw.unread <:+: delivered := by
            rw [hgone]
            exact (unread_suffix raw).isInfix.trans (List.infix_append' gone raw.data _)
          have hnone := parse_of_noFrame junk other.calls
            (hquiet raw.unread hinside (htag rfl raw rest hraw))
          have hround := parseRound_again (pgsql junk) hraw
          generalize parseRound (pgsql junk) (other, .again) = outcome at hround ⊢
          cases hround with
          | pushed hparse hpush hleft => simp [hparse] at hnone
          | full hparse hpush => simp [hparse] at hnone
          | dropped hparse => exact ⟨⟨⟨_, hdropped⟩, hframes⟩, fun h => by cases h⟩
          | marked hparse hflags => exact ⟨⟨⟨gone, hgone⟩, hframes⟩, fun h => by cases h⟩
          | overlaid hparse hrest =>
              subst hrest
              refine ⟨⟨⟨gone, ?_⟩, hframes⟩, fun h => by cases h⟩
              rw [hgone, List.flatMap_cons, List.flatMap_cons, ← List.append_assoc raw.data]
              rfl
          | waiting hparse hrest =>
              subst hrest
              exact ⟨⟨gone, hgone⟩, hframes⟩
          | failed hinvalid hmore hframe => exact ⟨⟨gone, hgone⟩, hframes⟩

theorem PendingOf.add {delivered data : List UInt8} {stream added : DataStream PgsqlRegularMsg}
    {timestampNs : UInt64} (h : PendingOf delivered stream)
    (hadd : stream.dataStreamAddRawData data timestampNs = some added) :
    PendingOf (delivered ++ data) added ∧ added.frameBufs = stream.frameBufs := by
  obtain ⟨gone, hgone⟩ := h
  rw [dataStreamAddRawData_eq hadd]
  exact ⟨⟨gone, by simp [hgone, RawData.create]⟩, rfl⟩

theorem delivers_quiet {junk : ℕ → Bool} {timestampNs : UInt64} {bytes : List UInt8}
    (hquiet : NoFrameInside bytes) {chunks : List Chunk} {stream last : DataStream PgsqlRegularMsg}
    (h : Delivers (pgsql junk) timestampNs chunks stream last) {delivered : List UInt8}
    (hpending : PendingOf delivered stream) (hbytes : delivered ++ bytesOf chunks <+: bytes) :
    last.frameBufs = stream.frameBufs := by
  have hquiet' {other : List UInt8} (hother : other <+: bytes) : NoFrameInside other :=
    fun stretch hstretch => hquiet stretch (hstretch.trans hother.isInfix)
  induction h generalizing delivered with
  | done fuel hparse =>
      have hhere : delivered <+: bytes := by simpa [bytesOf] using hbytes
      exact (parse_quiet (hquiet' hhere) hpending hparse).2
  | @keep data chunks stream added last hadd hrest ih =>
      obtain ⟨hadded, hframes⟩ := hpending.add hadd
      rw [ih hadded (by simpa [bytesOf] using hbytes), hframes]
  | @parse data chunks stream added parsed last hadd fuel hparse hrest ih =>
      obtain ⟨hadded, hframes⟩ := hpending.add hadd
      have hrest' : (delivered ++ data) ++ bytesOf chunks <+: bytes := by
        simpa [bytesOf] using hbytes
      obtain ⟨hparsed, hsame⟩ := parse_quiet
        (hquiet' ((List.prefix_append _ _).trans hrest')) hadded hparse
      rw [ih hparsed hrest', hsame, hframes]

theorem frameBufSize_le {protocol : Protocol PgsqlRegularMsg} {timestampNs : UInt64}
    {chunks : List Chunk} {stream last : DataStream PgsqlRegularMsg}
    (h : Delivers protocol timestampNs chunks stream last)
    (hsize : stream.frameBufs.frameBufSize ≤ FRAME_BUF_SIZE) :
    last.frameBufs.frameBufSize ≤ FRAME_BUF_SIZE := by
  induction h with
  | done fuel hparse => exact (dataStreamParseFrames_bounded hparse).fits hsize
  | keep hadd hrest ih =>
      rw [dataStreamAddRawData_eq hadd] at ih
      exact ih hsize
  | parse hadd fuel hparse hrest ih =>
      rw [dataStreamAddRawData_eq hadd] at hparse
      exact ih ((dataStreamParseFrames_bounded hparse).fits hsize)

-- A stream delivered byte by byte leaves no frame.
theorem delivers_bytewise (junk : ℕ → Bool) (timestampNs : UInt64) (bytes : List UInt8) :
    ∃ last, Delivers (pgsql junk) timestampNs (singles bytes) .init last ∧
      last.frameBufs.frameBufSize = 0 := by
  obtain ⟨after, hshort, hone, hframes, hdeliver⟩ :=
    delivers_singles junk timestampNs bytes shortChunks_init (Nat.zero_le 1)
  obtain ⟨fuel, last, hparse⟩ := dataStreamParseFrames_finishes (pgsql junk) after
  have hlast := (parse_short hshort hparse).2.2
  refine ⟨last, ?_, by rw [hlast, hframes]; rfl⟩
  simpa using hdeliver [] last (.done fuel hparse)

-- A stretch that is a frame is parsed when it comes as one chunk.
theorem delivers_stretch (junk : ℕ → Bool) (timestampNs : UInt64) (before after : List UInt8)
    {frame : List UInt8} (htag : StartsWithTag frame) (hframe : ParsesAsFrame frame) :
    ∃ last, Delivers (pgsql junk) timestampNs
        (singles before ++ [⟨frame, true⟩, ⟨after, false⟩]) .init last ∧
      1 ≤ last.frameBufs.frameBufSize := by
  obtain ⟨middle, hshort, hone, hframes, hdeliver⟩ :=
    delivers_singles junk timestampNs before shortChunks_init (Nat.zero_le 1)
  have hadd := dataStreamAddRawData_of_lt middle frame timestampNs
    (Nat.lt_of_le_of_lt hone (show 1 < RAW_BUF_SIZE by decide))
  obtain ⟨fuel, parsed, hparse⟩ := dataStreamParseFrames_finishes (pgsql junk)
    { middle with rawBufs := middle.rawBufs ++ [.create frame timestampNs] }
  have hone' := parse_frame htag hframe hshort hone (by rw [hframes]; rfl) hparse
  have hfewer := (dataStreamParseFrames_bounded hparse).fewer
  simp only [List.length_append, List.length_singleton] at hfewer
  have hadd' := dataStreamAddRawData_of_lt parsed after timestampNs
    (by simp only [RAW_BUF_SIZE]; omega)
  obtain ⟨fuel', last, hparse'⟩ := dataStreamParseFrames_finishes (pgsql junk)
    { parsed with rawBufs := parsed.rawBufs ++ [.create after timestampNs] }
  refine ⟨last, hdeliver _ last (.parse hadd fuel hparse (.keep hadd' (.done fuel' hparse'))), ?_⟩
  exact hone'.trans (dataStreamParseFrames_bounded hparse').grows

theorem noFrameInside_of_independent {bytes : List UInt8} {timestampNs : UInt64}
    (h : SegmentationIndependent bytes timestampNs) : NoFrameInside bytes := by
  rintro frame ⟨before, after, rfl⟩ htag hframe
  obtain ⟨last, hlast, hzero⟩ := delivers_bytewise (fun _ => false) timestampNs
    (before ++ frame ++ after)
  obtain ⟨last', hlast', hone⟩ := delivers_stretch (fun _ => false) timestampNs before after
    htag hframe
  have hbytes : bytesOf (singles before ++ [⟨frame, true⟩, ⟨after, false⟩]) =
      before ++ frame ++ after := by
    have hsingles := bytesOf_singles before
    simp only [bytesOf] at hsingles ⊢
    simp [hsingles]
  have hsame := h _ _ _ _ last last' (bytesOf_singles _) hbytes hlast hlast'
    (frameBufSize_le hlast (Nat.zero_le _)) (frameBufSize_le hlast' (Nat.zero_le _))
  have hlength := congrArg List.length hsame
  rw [FrameBuf.length_contents, FrameBuf.length_contents] at hlength
  omega

theorem segmentationIndependent_iff (bytes : List UInt8) (timestampNs : UInt64) :
    SegmentationIndependent bytes timestampNs ↔ NoFrameInside bytes := by
  refine ⟨noFrameInside_of_independent, fun hquiet => ?_⟩
  intro junk junk' chunks chunks' last last' hchunks hchunks' hlast hlast' _ _
  have hempty : PendingOf [] .init := ⟨[], rfl⟩
  rw [delivers_quiet hquiet hlast hempty (by rw [hchunks]; exact List.prefix_rfl),
    delivers_quiet hquiet hlast' hempty (by rw [hchunks']; exact List.prefix_rfl)]

-- The query `ab` and a sync message.
def querySync : List UInt8 := [0x51, 0, 0, 0, 7, 0x61, 0x62, 0, 0x53, 0, 0, 0, 4]

theorem querySync_not_independent :
    ¬∀ (bytes : List UInt8) (timestampNs : UInt64), SegmentationIndependent bytes timestampNs := by
  intro h
  have htag : StartsWithTag querySync := ⟨0x51, _, rfl, by decide⟩
  have hframe : ParsesAsFrame querySync := by
    unfold ParsesAsFrame
    decide
  exact noFrameInside_of_independent (h querySync 0) querySync List.infix_rfl htag hframe

end Gopher.L7.Pgsql
