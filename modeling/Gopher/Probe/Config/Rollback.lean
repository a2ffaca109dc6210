import Gopher.Probe.Config

namespace Gopher.Probe.Config

open Gopher.Lib

-- What a request configures: the probe without its run state.
def ProbeS.settings (probe : ProbeS) : ProbeS :=
  { probe with flags := ⟨false, false, false, false⟩, isRestart := false, pid := -1 }

-- A request as a transaction: each item is taken up by its parser until one is
-- refused. Nothing is backed up and nothing rolled back.
def applyItems (env : Env) (json : Json) : List Item → ProbeS → ProbeS × Result
  | [], probe => (probe, .ok)
  | item :: items, probe =>
      match json.getObjectItem item.name with
      | none => applyItems env json items probe
      | some value =>
          match item.parser env value probe with
          | (probe, .ok) => applyItems env json items probe
          | (probe, .error message) => (probe, .error message)

def hasItem (json : Json) (items : List Item) : Bool :=
  items.any fun item => (json.getObjectItem item.name).isSome

-- What the cmd parser may write, its rollbacker overwrites.
def WritesCmd (before after : ProbeS) : Prop :=
  ∃ written, after = probeRollbackCmd before written

namespace WritesCmd

theorem refl (probe : ProbeS) : WritesCmd probe probe :=
  ⟨probeBackupCmd probe zeroBackup, rfl⟩

theorem trans {first second third : ProbeS} (hfirst : WritesCmd first second)
    (hsecond : WritesCmd second third) : WritesCmd first third := by
  obtain ⟨written, rfl⟩ := hfirst
  obtain ⟨written', rfl⟩ := hsecond
  exact ⟨written', rfl⟩

theorem of_fields {before after : ProbeS}
    (h : after = probeRollbackCmd before (probeBackupCmd after zeroBackup)) :
    WritesCmd before after :=
  ⟨_, h⟩

end WritesCmd

theorem setProbeEntry_writes (env : Env) (probe : ProbeS) :
    WritesCmd probe (setProbeEntry env probe).1 := by
  unfold setProbeEntry
  split
  · exact .refl probe
  · split
    · exact .refl probe
    · dsimp only
      split
      · exact .of_fields rfl
      · exact .refl probe

theorem setProbeBin_writes (env : Env) (bin : Text) (probe : ProbeS) :
    WritesCmd probe (setProbeBin env bin probe).1 := by
  have hset : ∀ name : Option Text, WritesCmd probe
      (if isExtendProbe env name then ({ probe with bin := name, isExtendProbe := true }, Result.ok)
      else setProbeEntry env { probe with bin := name }).1 := by
    intro name
    split
    · exact .of_fields rfl
    · exact .trans (.of_fields rfl) (setProbeEntry_writes env _)
  unfold setProbeBin
  dsimp only
  split
  · split
    · exact .of_fields rfl
    · exact hset _
  · exact hset _

theorem probeParserRangeItems_writes (objects : List Json) (probe : ProbeS) :
    WritesCmd probe (probeParserRangeItems objects probe).1 := by
  induction objects generalizing probe with
  | nil => exact .refl probe
  | cons object objects ih =>
      simp only [probeParserRangeItems]
      split
      · exact .refl probe
      · exact .trans (.of_fields rfl) (ih _)

theorem probeParserCmd_writes (env : Env) (item : Json) (probe : ProbeS) :
    WritesCmd probe (probeParserCmd env item probe).1 := by
  have hbin := setProbeBin_writes env (cmdBin item probe.probeType) probe
  unfold probeParserCmd
  split
  case h_1 probe' message heq =>
    rw [heq] at hbin
    exact hbin
  case h_2 probe' heq =>
    rw [heq] at hbin
    have hcmd : WritesCmd probe' (cmdChkCmd item probe') := by
      unfold cmdChkCmd
      split
      · exact .refl probe'
      · exact .of_fields rfl
    have hcb : WritesCmd probe { cmdChkCmd item probe' with
        cb := some (if (cmdChkCmd item probe').isExtendProbe then .extend else .native) } :=
      .trans (.trans hbin hcmd) (.of_fields rfl)
    dsimp only
    split
    · exact hcb
    · exact .trans hcb (.trans (.of_fields rfl) (probeParserRangeItems_writes _ _))

theorem startProbe_settings (env : Env) (probe : ProbeS) :
    (startProbe env probe).1.settings = probe.settings := by
  unfold startProbe
  split
  · rfl
  · dsimp only
    split <;> rfl

theorem stopProbe_settings (env : Env) (probe : ProbeS) :
    (stopProbe env probe).1.settings = probe.settings := by
  unfold stopProbe
  split
  · rfl
  · dsimp only
    split
    · split <;> rfl
    · split <;> rfl

theorem probeParserState_settings (env : Env) (item : Json) (probe : ProbeS) :
    (probeParserState env item probe).1.settings = probe.settings := by
  unfold probeParserState
  split
  · rfl
  · split
    · exact startProbe_settings env probe
    · split
      · exact stopProbe_settings env probe
      · rfl

theorem parser_writes (env : Env) (item : Item) (value : Json) (probe : ProbeS) :
    ∃ written, (item.parser env value probe).1.settings =
      (item.rollbacker probe written).settings := by
  cases item with
  | cmd =>
      obtain ⟨written, h⟩ := probeParserCmd_writes env value probe
      exact ⟨written, congrArg ProbeS.settings h⟩
  | snoopers =>
      simp only [Item.parser, Item.rollbacker, parseSnooper]
      split
      case h_1 confs message heq =>
        exact ⟨{ zeroBackup with snooperConfs := confs, snooperObjs := probe.snooperObjs }, rfl⟩
      case h_2 confs heq =>
        exact ⟨{ zeroBackup with snooperConfs := confs, snooperObjs := env.snooperObjs confs },
          rfl⟩
  | params =>
      exact ⟨{ zeroBackup with probeParam := (parseParams value probe.probeParam).1 }, rfl⟩
  | state => exact ⟨zeroBackup, probeParserState_settings env value probe⟩

theorem rollbacker_flags (item : Item) (probe : ProbeS) (backup : Backup) :
    (item.rollbacker probe backup).flags = probe.flags := by
  cases item <;> rfl

theorem rollbacker_settings (item : Item) (probe : ProbeS) (backup : Backup) :
    item.rollbacker probe.settings backup = (item.rollbacker probe backup).settings := by
  cases item <;> rfl

@[simp] theorem rollbackProbe_flags (flag : List Item) (probe : ProbeS) (backup : Backup) :
    (rollbackProbe flag probe backup).flags = probe.flags := by
  have hkeeps : probeParsers.foldl (fun flags _ => flags) probe.flags =
      (rollbackProbe flag probe backup).flags := by
    apply List.foldl_hom ProbeS.flags
    intro probe item
    split
    · exact (rollbacker_flags item probe backup).symm
    · rfl
  exact hkeeps.symm

theorem rollbackProbe_settings (flag : List Item) (probe : ProbeS) (backup : Backup) :
    (rollbackProbe flag probe backup).settings = rollbackProbe flag probe.settings backup := by
  symm
  apply List.foldl_hom ProbeS.settings
  intro probe item
  split
  · exact rollbacker_settings item probe backup
  · rfl

-- One item: whatever its parser has written, rolling back with the item marked
-- gives what rolling back gave before the item was taken up.
theorem rollbackProbe_item (env : Env) (item : Item) (value : Json) (flag : List Item)
    (probe : ProbeS) (backup : Backup) (hfresh : item ∉ flag) :
    (rollbackProbe (flag ++ [item]) (item.parser env value (item.backuper probe backup).1).1
        (item.backuper probe backup).2).settings =
      (rollbackProbe flag probe backup).settings := by
  obtain ⟨written, hwritten⟩ := parser_writes env item value (item.backuper probe backup).1
  rw [rollbackProbe_settings, hwritten, ← rollbackProbe_settings]
  cases item with
  | cmd =>
      by_cases hsnoopers : Item.snoopers ∈ flag <;> by_cases hparams : Item.params ∈ flag <;>
        simp [rollbackProbe, probeParsers, hfresh, hsnoopers, hparams] <;> rfl
  | snoopers =>
      by_cases hcmd : Item.cmd ∈ flag <;> by_cases hparams : Item.params ∈ flag <;>
        simp [rollbackProbe, probeParsers, hfresh, hcmd, hparams] <;> rfl
  | params =>
      by_cases hcmd : Item.cmd ∈ flag <;> by_cases hsnoopers : Item.snoopers ∈ flag <;>
        simp [rollbackProbe, probeParsers, hfresh, hcmd, hsnoopers] <;> rfl
  | state =>
      simp [rollbackProbe, probeParsers, Item.rollbacker, Item.backuper]

theorem applyItems_of_not_hasItem (env : Env) (json : Json) (items : List Item) (probe : ProbeS)
    (hnone : hasItem json items = false) : applyItems env json items probe = (probe, .ok) := by
  induction items with
  | nil => rfl
  | cons item items ih =>
      rw [hasItem, List.any_cons, Bool.or_eq_false_iff, Option.isSome_eq_false_iff,
        Option.isNone_iff_eq_none] at hnone
      rw [applyItems, hnone.1]
      exact ih hnone.2

theorem applyItems_append (env : Env) (json : Json) (items rest : List Item) (probe : ProbeS) :
    applyItems env json (items ++ rest) probe =
      match applyItems env json items probe with
      | (probe, .ok) => applyItems env json rest probe
      | (probe, .error message) => (probe, .error message) := by
  induction items generalizing probe with
  | nil => rfl
  | cons item items ih =>
      rw [List.cons_append, applyItems, applyItems]
      cases hitem : json.getObjectItem item.name with
      | none => exact ih probe
      | some value =>
          dsimp only
          cases hparser : item.parser env value probe with
          | mk next result =>
              cases result with
              | ok => exact ih next
              | error message => rfl

-- What every parser of a named item keeps, the transaction keeps.
theorem applyItems_relates (related : ProbeS → ProbeS → Prop) (hrefl : ∀ probe, related probe probe)
    (htrans : ∀ {first second third}, related first second → related second third →
      related first third)
    (env : Env) (json : Json) (items : List Item) (probe : ProbeS)
    (hparser : ∀ item ∈ items, ∀ value ∈ json.getObjectItem item.name, ∀ probe,
      related probe (item.parser env value probe).1) :
    related probe (applyItems env json items probe).1 := by
  induction items generalizing probe with
  | nil => exact hrefl probe
  | cons item items ih =>
      have hrest : ∀ other ∈ items, ∀ value ∈ json.getObjectItem other.name, ∀ probe,
          related probe (other.parser env value probe).1 :=
        fun other hmem => hparser other (List.mem_cons_of_mem item hmem)
      rw [applyItems]
      cases hvalue : json.getObjectItem item.name with
      | none => exact ih probe hrest
      | some value =>
          have hitem := hparser item List.mem_cons_self value hvalue probe
          dsimp only
          rcases hnext : item.parser env value probe with ⟨next, result⟩
          rw [hnext] at hitem
          cases result with
          | ok => exact htrans hitem (ih next hrest)
          | error message => exact hitem

theorem applyItems_frame {α : Type*} (field : ProbeS → α) (env : Env) (json : Json)
    (items : List Item) (probe : ProbeS)
    (hkeeps : ∀ item ∈ items, ∀ value probe,
      field (item.parser env value probe).1 = field probe) :
    field (applyItems env json items probe).1 = field probe :=
  applyItems_relates (fun before after => field after = field before) (fun _ => rfl)
    (fun hfirst hsecond => hsecond.trans hfirst) env json items probe
    fun item hitem value _ probe => hkeeps item hitem value probe

-- The snoopers are taken away before their parser runs, which does not look at them.
theorem parser_backuper (env : Env) (item : Item) (value : Json) (probe : ProbeS)
    (backup : Backup) :
    let backed := item.parser env value (item.backuper probe backup).1
    let plain := item.parser env value probe
    backed.2 = plain.2 ∧ backed.1.flags = plain.1.flags ∧ (plain.2 = .ok → backed.1 = plain.1) := by
  cases item with
  | snoopers =>
      simp only [Item.parser, Item.backuper, backupSnooper, parseSnooper]
      split <;> simp
  | cmd => exact ⟨rfl, rfl, fun _ => rfl⟩
  | params => exact ⟨rfl, rfl, fun _ => rfl⟩
  | state => exact ⟨rfl, rfl, fun _ => rfl⟩

section Step

variable (env : Env) (json : Json) (item : Item) (items flag : List Item) (ret : Result)
  (probe : ProbeS) (backup : Backup)

theorem parseItems_absent (hitem : json.getObjectItem item.name = none) :
    parseItems env json (item :: items) flag ret probe backup =
      parseItems env json items flag ret probe backup := by
  rw [parseItems, hitem]

theorem parseItems_accepted {value : Json} {next : ProbeS}
    (hitem : json.getObjectItem item.name = some value)
    (hparser : item.parser env value probe = (next, .ok)) :
    item.parser env value (item.backuper probe backup).1 = (next, .ok) ∧
      parseItems env json (item :: items) flag ret probe backup =
        parseItems env json items (flag ++ [item]) .ok next (item.backuper probe backup).2 := by
  obtain ⟨hresult, -, hprobe⟩ := parser_backuper env item value probe backup
  rw [hparser] at hresult hprobe
  have hbacked : item.parser env value (item.backuper probe backup).1 = (next, .ok) :=
    Prod.ext (hprobe rfl) hresult
  refine ⟨hbacked, ?_⟩
  rw [parseItems, hitem]
  dsimp only
  rw [hbacked]

theorem parseItems_refused {value : Json} {next : ProbeS} {message : Option Text}
    (hitem : json.getObjectItem item.name = some value)
    (hparser : item.parser env value probe = (next, .error message)) :
    ∃ backed, item.parser env value (item.backuper probe backup).1 = (backed, .error message) ∧
      backed.flags = next.flags ∧
      parseItems env json (item :: items) flag ret probe backup =
        (rollbackProbe (flag ++ [item]) backed (item.backuper probe backup).2,
          (item.backuper probe backup).2, .error message) := by
  obtain ⟨hresult, hflags, -⟩ := parser_backuper env item value probe backup
  rw [hparser] at hresult hflags
  have hbacked : item.parser env value (item.backuper probe backup).1 =
      ((item.parser env value (item.backuper probe backup).1).1, .error message) :=
    Prod.ext rfl hresult
  refine ⟨_, hbacked, hflags, ?_⟩
  rw [parseItems, hitem]
  dsimp only
  rw [hbacked]

end Step

-- The loop with its backups answers as the transaction does, with the run state
-- the transaction leaves, and an accepted request is carried out in full.
theorem parseItems_refines (env : Env) (json : Json) (items flag : List Item) (ret : Result)
    (probe : ProbeS) (backup : Backup) :
    let loop := parseItems env json items flag ret probe backup
    let transaction := applyItems env json items probe
    loop.2.2 = (if hasItem json items then transaction.2 else ret) ∧
      loop.1.flags = transaction.1.flags ∧ (transaction.2 = .ok → loop.1 = transaction.1) := by
  induction items generalizing flag ret probe backup with
  | nil => exact ⟨rfl, rfl, fun _ => rfl⟩
  | cons item items ih =>
      rw [applyItems, hasItem, List.any_cons]
      cases hitem : json.getObjectItem item.name with
      | none =>
          rw [parseItems_absent env json item items flag ret probe backup hitem]
          exact ih flag ret probe backup
      | some value =>
          dsimp only
          rw [Option.isSome_some, Bool.true_or, if_pos rfl]
          rcases hparser : item.parser env value probe with ⟨next, result⟩
          cases result with
          | error message =>
              obtain ⟨backed, -, hflags, hloop⟩ :=
                parseItems_refused env json item items flag ret probe backup hitem hparser
              rw [hloop]
              exact ⟨rfl, by rw [rollbackProbe_flags, hflags], by simp⟩
          | ok =>
              rw [(parseItems_accepted env json item items flag ret probe backup hitem hparser).2]
              obtain ⟨hresult, hprobe⟩ :=
                ih (flag ++ [item]) .ok next (item.backuper probe backup).2
              refine ⟨?_, hprobe⟩
              rw [hresult]
              by_cases hitems : hasItem json items
              · rw [if_pos hitems]
              · dsimp only
                rw [if_neg hitems, applyItems_of_not_hasItem env json items next
                  (by simpa using hitems)]

-- A request that is refused is undone, whichever item was refused: the invariant
-- is that rolling back the items taken up so far would give the settings before.
theorem parseItems_restores (env : Env) (json : Json) (items flag : List Item) (ret : Result)
    (probe : ProbeS) (backup : Backup) (message : Option Text)
    (hfresh : ∀ item ∈ items, item ∉ flag) (hnodup : items.Nodup)
    (hrefused : (applyItems env json items probe).2 = .error message) :
    (parseItems env json items flag ret probe backup).1.settings =
      (rollbackProbe flag probe backup).settings := by
  induction items generalizing flag ret probe backup with
  | nil => cases hrefused
  | cons item items ih =>
      have hrest : ∀ other ∈ items, other ∉ flag := fun other hother =>
        hfresh other (List.mem_cons_of_mem item hother)
      obtain ⟨hnotMem, hrestNodup⟩ := List.nodup_cons.mp hnodup
      rw [applyItems] at hrefused
      cases hitem : json.getObjectItem item.name with
      | none =>
          rw [hitem] at hrefused
          rw [parseItems_absent env json item items flag ret probe backup hitem]
          exact ih flag ret probe backup hrest hrestNodup hrefused
      | some value =>
          have hundo := rollbackProbe_item env item value flag probe backup
            (hfresh item List.mem_cons_self)
          rw [hitem] at hrefused
          dsimp only at hrefused
          rcases hparser : item.parser env value probe with ⟨next, result⟩
          rw [hparser] at hrefused
          cases result with
          | error message' =>
              obtain ⟨backed, hbacked, -, hloop⟩ :=
                parseItems_refused env json item items flag ret probe backup hitem hparser
              rw [hbacked] at hundo
              rw [hloop]
              exact hundo
          | ok =>
              obtain ⟨hbacked, hloop⟩ :=
                parseItems_accepted env json item items flag ret probe backup hitem hparser
              rw [hbacked] at hundo
              rw [hloop, ← hundo]
              refine ih (flag ++ [item]) .ok next _ ?_ hrestNodup hrefused
              intro other hother hmem
              rcases List.mem_append.mp hmem with hflag | hsame
              · exact hrest other hother hflag
              · rw [List.mem_singleton.mp hsame] at hother
                exact hnotMem hother

end Gopher.Probe.Config
