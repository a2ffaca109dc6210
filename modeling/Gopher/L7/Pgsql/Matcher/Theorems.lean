import Gopher.L7.FrameStream
import Gopher.L7.Pgsql.Matcher

namespace Gopher.L7.Pgsql

open Gopher.L7

-- What every handler keeps to: it moves within the responses, and a reply takes
-- responses it has moved over.
structure Handled.Fits (handled : Handled) (slots : List (Slot PgsqlFrame)) : Prop where
  advanced_le : handled.advanced ≤ slots.length
  replied : ∀ reply, handled.result = .ok reply → 0 < handled.advanced ∧
    reply.taken.Sublist (pointers (slots.take handled.advanced))

section Handlers

variable {slots : List (Slot PgsqlFrame)} {tags : List UInt8} {handled : Handled}
  {found : FoundTag}

theorem Handled.Fits.failed {state : ParseState} {advanced : ℕ} (h : advanced ≤ slots.length) :
    (Handled.failed state advanced).Fits slots where
  advanced_le := h
  replied := by
    intro reply hreply
    cases hreply

theorem Handled.Fits.of_replied {taken : List ℕ} {timestampNs : Option UInt64} {advanced : ℕ}
    (hle : advanced ≤ slots.length) (hpos : 0 < advanced)
    (htaken : taken.Sublist (pointers (slots.take advanced))) :
    (Handled.replied taken timestampNs advanced).Fits slots where
  advanced_le := hle
  replied := by
    intro reply hreply
    cases hreply
    exact ⟨hpos, htaken⟩

theorem pointers_append (slots more : List (Slot PgsqlFrame)) :
    pointers (slots ++ more) = pointers slots ++ pointers more := List.filterMap_append

-- The slots before the current one are the ones the loop has passed.
theorem collectQueryResp_fits {ends rows : List UInt8} {taken : List ℕ}
    {timestampNs : Option UInt64} (before : List (Slot PgsqlFrame))
    (htaken : taken.Sublist (pointers before))
    (hfound : timestampNs.isSome → before ≠ [])
    (h : collectQueryResp ends rows slots before.length taken timestampNs = some handled) :
    handled.Fits (before ++ slots) := by
  induction slots generalizing before taken timestampNs with
  | nil =>
      rw [collectQueryResp] at h
      split_ifs at h with hsome
      · cases h
        have hpos := List.length_pos_iff.mpr (hfound hsome)
        exact .of_replied (by simp) hpos (by simpa using htaken)
      · cases h
        exact .failed (by simp)
  | cons slot rest ih =>
      rcases slot with _ | ⟨ptr, frame⟩
      · cases h
      · have hmore : (taken ++ [ptr]).Sublist (pointers (before ++ [some (ptr, frame)])) := by
          rw [pointers_append]
          exact htaken.append (List.Sublist.refl _)
        have hless : taken.Sublist (pointers (before ++ [some (ptr, frame)])) := by
          rw [pointers_append]
          exact htaken.trans (List.sublist_append_left _ _)
        have hlength : (before ++ [some (ptr, frame)]).length = before.length + 1 := by simp
        rw [List.append_cons]
        rw [collectQueryResp] at h
        split_ifs at h with hends hrows hdata
        · cases hreply : parseReply frame.msg with
          | error state =>
              rw [hreply] at h
              cases h
              exact .failed (Nat.zero_le _)
          | ok _ =>
              rw [hreply] at h
              cases h
              refine .of_replied (by simp) (Nat.succ_pos _) ?_
              rw [← hlength, List.take_left]
              exact hmore
        · rw [← hlength] at h
          exact ih _ hmore (by simp) h
        · rw [← hlength] at h
          exact ih _ hmore (by simp) h
        · rw [← hlength] at h
          exact ih _ hless (by simp) h

-- The found response stands at its index.
structure FoundTag.Stands (found : FoundTag) (slots : List (Slot PgsqlFrame)) : Prop where
  index_lt : found.index < slots.length
  pointers : pointers (slots.take (found.index + 1)) =
    pointers (slots.take found.index) ++ [found.ptr]

theorem pgsqlFindFirstTag_stands (before : List (Slot PgsqlFrame))
    (h : pgsqlFindFirstTag tags slots before.length = some (some found)) :
    found.Stands (before ++ slots) := by
  induction slots generalizing before with
  | nil => cases h
  | cons slot rest ih =>
      rcases slot with _ | ⟨ptr, frame⟩
      · cases h
      · rw [pgsqlFindFirstTag] at h
        split_ifs at h with htag
        · cases h
          refine ⟨by simp, ?_⟩
          simp [pointers, List.take_append, List.take_of_length_le]
        · rw [List.append_cons]
          exact ih _ (by simpa using h)

theorem FoundTag.Stands.fits {timestampNs : Option UInt64} (h : found.Stands slots) :
    (Handled.replied [found.ptr] timestampNs (found.index + 1)).Fits slots := by
  refine .of_replied h.index_lt (Nat.succ_pos _) ?_
  rw [h.pointers]
  exact List.sublist_append_right _ _

-- A search for a tag and what is done with its result.
theorem fits_of_findFirstTag {next : Option FoundTag → Option Handled}
    (h : (pgsqlFindFirstTag tags slots 0).bind next = some handled)
    (hnone : next none = some (.failed .notFound 0))
    (hsome : ∀ found, found.Stands slots → next (some found) = some handled →
      handled.Fits slots) : handled.Fits slots := by
  obtain ⟨result, hfind, hresult⟩ := Option.bind_eq_some_iff.mp h
  cases result with
  | none =>
      rw [hnone] at hresult
      cases hresult
      exact .failed (Nat.zero_le _)
  | some found => exact hsome found (pgsqlFindFirstTag_stands [] hfind) hresult

theorem handleComplete_fits {parsed : Except ParseState Unit} {complete : UInt8}
    (h : handleComplete parsed complete slots = some handled) : handled.Fits slots := by
  cases parsed with
  | error state =>
      cases h
      exact .failed (Nat.zero_le _)
  | ok _ =>
      rw [handleComplete, Option.map_eq_bind] at h
      refine fits_of_findFirstTag h rfl fun found hstands hresult => ?_
      simp only [Function.comp_apply] at hresult
      cases hreply : parseReply found.msg with
      | error state =>
          rw [hreply] at hresult
          cases hresult
          exact .failed hstands.index_lt
      | ok _ =>
          rw [hreply] at hresult
          cases hresult
          exact hstands.fits

theorem fillRowDesc_fits (hstands : found.Stands slots)
    (h : fillRowDesc found (slots.drop (found.index + 1)) = some handled) :
    handled.Fits slots := by
  have hlt := hstands.index_lt
  cases hrest : slots.drop (found.index + 1) with
  | nil =>
      rw [hrest] at h
      cases h
      exact .failed hlt
  | cons slot rest =>
      rw [hrest] at h
      have hnext : found.index + 2 ≤ slots.length := by
        have hlength := congrArg List.length hrest
        simp only [List.length_drop, List.length_cons] at hlength
        omega
      rcases slot with _ | ⟨ptr, frame⟩
      · cases h
      · have htake : pointers (slots.take (found.index + 2)) =
            pointers (slots.take found.index) ++ [found.ptr, ptr] := by
          have hsplit : slots.take (found.index + 2) =
              slots.take (found.index + 1) ++ [some (ptr, frame)] := by
            rw [List.take_add (i := found.index + 1) (j := 1), hrest]
            rfl
          rw [hsplit, pointers_append, hstands.pointers, List.append_assoc]
          rfl
        have hfits : (Handled.replied [found.ptr, ptr] (some found.msg.timestampNs)
            (found.index + 2)).Fits slots := by
          refine .of_replied hnext (Nat.succ_pos _) ?_
          rw [htake]
          exact List.sublist_append_right _ _
        simp only [fillRowDesc] at h
        split_ifs at h with hrow hnodata
        · obtain ⟨parsed, -, hparsed⟩ := Option.map_eq_some_iff.mp h
          subst hparsed
          cases parsed with
          | error state => exact .failed hnext
          | ok _ => exact hfits
        · cases h
          exact hfits
        · cases h
          exact .failed hnext

theorem pgsqlFillStmtDescResp_fits (h : pgsqlFillStmtDescResp slots = some handled) :
    handled.Fits slots := by
  refine fits_of_findFirstTag h rfl fun found hstands hresult => ?_
  dsimp only at hresult
  split_ifs at hresult with herr
  · cases hparsed : pgsqlParseErrResp found.msg with
    | error state =>
        rw [hparsed] at hresult
        cases hresult
        exact .failed hstands.index_lt
    | ok _ =>
        rw [hparsed] at hresult
        cases hresult
        exact hstands.fits
  · cases hparsed : pgsqlParseParamDesc found.msg with
    | error state =>
        rw [hparsed] at hresult
        cases hresult
        exact .failed hstands.index_lt
    | ok _ =>
        rw [hparsed] at hresult
        exact fillRowDesc_fits hstands hresult

theorem pgsqlFillPortalDescResp_fits (h : pgsqlFillPortalDescResp slots = some handled) :
    handled.Fits slots := by
  refine fits_of_findFirstTag h rfl fun found hstands hresult => ?_
  obtain ⟨parsed, -, hparsed⟩ := Option.bind_eq_some_iff.mp hresult
  cases parsed with
  | error state =>
      cases hparsed
      exact .failed hstands.index_lt
  | ok _ =>
      cases hparsed
      exact hstands.fits

theorem handler_fits {msg : PgsqlRegularMsg} {handler : List (Slot PgsqlFrame) → Option Handled}
    (hhandler : handlerOf msg = some handler) (h : handler slots = some handled) :
    handled.Fits slots := by
  have hcollect {ends rows : List UInt8} (h : collectQueryResp ends rows slots 0 [] none =
      some handled) : handled.Fits slots :=
    collectQueryResp_fits [] (List.Sublist.refl _) (by simp) h
  unfold handlerOf at hhandler
  split_ifs at hhandler with hquery hparse hbind hdescribe hexecute
  · cases hhandler
    exact hcollect h
  · cases hhandler
    exact handleComplete_fits h
  · cases hhandler
    exact handleComplete_fits h
  · cases hhandler
    unfold pgsqlHandleDescribe at h
    cases htype : pgsqlParseDescribe msg with
    | error state =>
        rw [htype] at h
        cases h
        exact .failed (Nat.zero_le _)
    | ok descType =>
        rw [htype] at h
        dsimp only at h
        split_ifs at h with hstatement hportal
        · exact pgsqlFillStmtDescResp_fits h
        · exact pgsqlFillPortalDescResp_fits h
        · cases h
          exact .failed (Nat.zero_le _)
  · cases hhandler
    exact hcollect h

-- No handler moves when the first response cannot be followed.
theorem handler_none {msg : PgsqlRegularMsg} {handler : List (Slot PgsqlFrame) → Option Handled}
    (hhandler : handlerOf msg = some handler) (h : handler (none :: slots) = some handled) :
    handled.advanced = 0 := by
  have hcomplete {parsed : Except ParseState Unit} {complete : UInt8}
      (h : handleComplete parsed complete (none :: slots) = some handled) :
      handled.advanced = 0 := by
    cases parsed with
    | error state =>
        cases h
        rfl
    | ok _ => cases h
  unfold handlerOf at hhandler
  split_ifs at hhandler with hquery hparse hbind hdescribe hexecute
  · cases hhandler
    cases h
  · cases hhandler
    exact hcomplete h
  · cases hhandler
    exact hcomplete h
  · cases hhandler
    unfold pgsqlHandleDescribe at h
    cases htype : pgsqlParseDescribe msg with
    | error state =>
        rw [htype] at h
        cases h
        rfl
    | ok descType =>
        rw [htype] at h
        dsimp only at h
        split_ifs at h with hstatement hportal
        · cases h
        · cases h
        · cases h
          rfl
  · cases hhandler
    cases h

end Handlers

end Gopher.L7.Pgsql
