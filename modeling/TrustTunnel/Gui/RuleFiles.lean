import TrustTunnel.Filter.Rules
import TrustTunnel.Gui.ConfigEdit

/-!
# Gui.RuleFiles

The files of a routing policy (`resolve_and_apply_reporting` and `update_toml_config` in
`routing_rules.rs`). The rules are resolved first. Then the four files that the core reads are written, each
as a whole, and last the configuration that points at them. Nothing is taken back when a later write fails.
-/

namespace TrustTunnel.Gui

open Toml Filter

inductive RuleFile where
  | exclusions
  | processDirect
  | processProxy
  | processBlock
  deriving DecidableEq

def RuleFile.failed : RuleFile → Bytes
  | .exclusions => ascii "Failed to write exclusions.txt: "
  | .processDirect => ascii "Failed to write process_direct.txt: "
  | .processProxy => ascii "Failed to write process_proxy.txt: "
  | .processBlock => ascii "Failed to write process_block.txt: "

/-- The process lists and the keys of the configuration that name them. -/
def processFiles : List (Text × RuleFile) :=
  [("process_direct_file", .processDirect), ("process_proxy_file", .processProxy),
    ("process_block_file", .processBlock)]

/-- What is on disk; a configuration that cannot be read as a text is not there. -/
structure Disk (Source : Type) where
  file : RuleFile → Option Bytes
  config : Option Source

def Disk.put {Source : Type} (d : Disk Source) (w : RuleFile × Bytes) : Disk Source :=
  { d with file := Function.update d.file w.1 (some w.2) }

/-- `write_bytes_atomic` fails before the new file is swapped in, with these errors. `modeUnread` and
`configUnread`: the first and the second reading of the configuration fail. -/
structure Surroundings where
  path : RuleFile → Text
  writeError : RuleFile → Option Bytes
  configWriteError : Option Bytes
  modeUnread : Bool
  configUnread : Bool
  readError : Bytes
  /-- the list can be read and is more than white space -/
  hasContent : Bytes → Bool

def utf8 (t : Text) : Bytes := t.flatMap String.utf8EncodeChar

structure Policy where
  entries : List Bytes
  processDirect : List Bytes
  processProxy : List Bytes

def Policy.writes (p : Policy) : List (RuleFile × Bytes) :=
  [(.exclusions, joinLines p.entries), (.processDirect, joinLines p.processDirect),
    (.processProxy, joinLines p.processProxy), (.processBlock, joinLines [])]

def resolvePolicy (src : Sources) (mode : Bytes) (rules : RoutingRules) : Except Bytes Policy := do
  let (processDirect, processProxy) ← resolveProcessRules rules
  let (direct, unresolved) ← resolveEntriesCollecting src rules.direct [] []
  let (proxy, unresolved) ← resolveEntriesCollecting src rules.proxy [] unresolved
  if unresolved.isEmpty then
    .ok ⟨buildPolicy mode direct proxy (explicitEntries src rules.direct) (explicitEntries src rules.proxy),
      processDirect, processProxy⟩
  else .error (ascii "One or more routing lists could not be resolved; refusing a partial policy")

def requiresOverrideSupport (exclusions : List Bytes) : Bool :=
  exclusions.any fun e => e.head?.any isSigil

section Apply

variable {Source : Type} (c : Codec Source) (src : Sources) (env : Surroundings)

def writeAll (d : Disk Source) : List (RuleFile × Bytes) → Except Bytes Unit × Disk Source
  | [] => (.ok (), d)
  | w :: ws =>
    match env.writeError w.1 with
    | some e => (.error (w.1.failed ++ e), d)
    | none => writeAll (d.put w) ws

def vpnMode (configPath : Text) (d : Disk Source) : Text :=
  if configPath.isEmpty || env.modeUnread then "general"
  else
    match d.config.map c.parse with
    | some (.ok doc) => ((doc.get "vpn_mode").bind Item.asStr).getD "general"
    | _ => "general"

def pointed (mode : Text) (exclusions : List Bytes) (d : Disk Source) (doc : Entries) : Entries :=
  let doc := ((doc.insert "vpn_mode" (.string mode)).insert "exclusions" (.array [])).insert "exclusions_file"
    (.string (env.path .exclusions))
  let doc :=
    if requiresOverrideSupport exclusions then
      (doc.insert "routing_policy_version" (.integer 1)).insert "exclusions_tcp_early_ack_enabled" (.boolean true)
    else doc.remove "routing_policy_version"
  let doc := (doc.remove "blocked").remove "blocked_file"
  processFiles.foldl (fun doc f =>
    if (d.file f.2).any env.hasContent then doc.insert f.1 (.string (env.path f.2)) else doc.remove f.1) doc

def updateTomlConfig (mode : Text) (exclusions : List Bytes) (d : Disk Source) : Except Bytes Unit × Disk Source :=
  match if env.configUnread then none else d.config with
  | none => (.error (ascii "Failed to read config: " ++ env.readError), d)
  | some text =>
    match c.parse text with
    | .error e => (.error (ascii "Failed to parse config: " ++ utf8 e.toList), d)
    | .ok doc =>
      match env.configWriteError with
      | some e => (.error (ascii "Failed to write config: " ++ e), d)
      | none => (.ok (), { d with config := some (c.render (pointed env mode exclusions d doc)) })

def resolveAndApplyReporting (configPath : Text) (rules : RoutingRules) (d : Disk Source) :
    Except Bytes Unit × Disk Source :=
  let mode := vpnMode c env configPath d
  match resolvePolicy src (utf8 mode) rules with
  | .error e => (.error e, d)
  | .ok p =>
    let r := writeAll env d p.writes
    if r.1.isOk && !configPath.isEmpty then updateTomlConfig c env mode p.entries r.2 else r

variable {c src env} {d d' : Disk Source} {e : Bytes}

theorem writeAll_eq (env : Surroundings) (d : Disk Source) (ws : List (RuleFile × Bytes)) :
    ∃ n, (writeAll env d ws).2 = (ws.take n).foldl Disk.put d := by
  induction ws generalizing d with
  | nil => exact ⟨0, rfl⟩
  | cons w ws ih =>
    unfold writeAll
    split
    · exact ⟨0, rfl⟩
    · obtain ⟨n, hn⟩ := ih (d.put w)
      exact ⟨n + 1, hn⟩

theorem config_puts (ws : List (RuleFile × Bytes)) (d : Disk Source) : (ws.foldl Disk.put d).config = d.config := by
  induction ws generalizing d with
  | nil => rfl
  | cons w ws ih => exact ih (d.put w)

theorem updateTomlConfig_error {mode : Text} {exclusions : List Bytes}
    (h : updateTomlConfig c env mode exclusions d = (.error e, d')) : d' = d := by
  unfold updateTomlConfig at h
  split at h
  · exact (Prod.mk.inj h).2.symm
  split at h
  · exact (Prod.mk.inj h).2.symm
  · split at h
    · exact (Prod.mk.inj h).2.symm
    · cases h

/-- When an error is returned the configuration is as before, and either the rules did not resolve and
nothing has changed, or the first of the four files, in the order of the writes, have their new contents and
the others are as before. -/
theorem applied_or_begun {configPath : Text} {rules : RoutingRules}
    (h : resolveAndApplyReporting c src env configPath rules d = (.error e, d')) : d'.config = d.config ∧
      (resolvePolicy src (utf8 (vpnMode c env configPath d)) rules = .error e ∧ d' = d ∨
        ∃ p n, resolvePolicy src (utf8 (vpnMode c env configPath d)) rules = .ok p ∧
          d' = (p.writes.take n).foldl Disk.put d) := by
  unfold resolveAndApplyReporting at h
  dsimp only at h
  split at h
  · rename_i hp
    cases h
    exact ⟨rfl, .inl ⟨hp, rfl⟩⟩
  rename_i p hp
  obtain ⟨n, hn⟩ := writeAll_eq env d p.writes
  have hd : d' = (writeAll env d p.writes).2 := by
    split at h
    · exact updateTomlConfig_error h
    · rw [h]
  exact ⟨by rw [hd, hn, config_puts], .inr ⟨p, n, hp, hd.trans hn⟩⟩

end Apply

def quiet : Surroundings :=
  ⟨fun _ => [], fun _ => none, none, false, false, [], fun b => !b.isEmpty⟩

/-- No rule file yet, and a configuration that is no TOML. -/
def malformed : Disk (Option Entries) := ⟨fun _ => none, some none⟩

theorem malformed_kept : ∃ e d',
    resolveAndApplyReporting Codec.direct noSources quiet "c" (rulesOf [] []) malformed = (.error e, d') ∧
      d'.config = malformed.config := by
  obtain ⟨e, d', h⟩ : ∃ e d', resolveAndApplyReporting Codec.direct noSources quiet "c" (rulesOf [] []) malformed =
    (.error e, d') := ⟨_, _, rfl⟩
  exact ⟨e, d', h, (applied_or_begun h).1⟩

/-- The exclusions are written before the configuration turns out to be unreadable. -/
theorem exclusions_ahead : ∃ e d',
    resolveAndApplyReporting Codec.direct noSources quiet "c" (rulesOf [] []) malformed = (.error e, d') ∧
      malformed.file .exclusions = none ∧ d'.file .exclusions = some (joinLines defaultPrivateExclusions) :=
  ⟨_, _, rfl, rfl, rfl⟩

section Retried

variable {Source : Type} {c : Codec Source} {src : Sources} {env : Surroundings} {d d' : Disk Source}
  {configPath : Text} {rules : RoutingRules}

theorem writeAll_ok {ws : List (RuleFile × Bytes)} (h : (writeAll env d ws).1.isOk = true) (d' : Disk Source) :
    writeAll env d' ws = (.ok (), ws.foldl Disk.put d') := by
  induction ws generalizing d d' with
  | nil => rfl
  | cons w ws ih =>
    unfold writeAll at h ⊢
    split at h
    · cases h
    · exact ih h (d'.put w)

/-- One call that fails. -/
def Fails (c : Codec Source) (d d' : Disk Source) : Prop :=
  ∃ src env configPath rules e, resolveAndApplyReporting c src env configPath rules d = (.error e, d')

theorem Fails.config (h : Fails c d d') : d'.config = d.config := by
  obtain ⟨src, env, configPath, rules, e, h⟩ := h
  unfold resolveAndApplyReporting at h
  dsimp only at h
  split at h
  · cases h
    rfl
  rename_i p _
  obtain ⟨n, hn⟩ := writeAll_eq env d p.writes
  have hd : d' = (writeAll env d p.writes).2 := by
    split at h
    · exact updateTomlConfig_error h
    · rw [h]
  rw [hd, hn, config_puts]

/-- However many calls have failed, the next one that succeeds, whatever it applies, returns and leaves what it
would have without them. -/
theorem next_apply_as_first (hfails : Relation.ReflTransGen (Fails c) d d')
    (hok : (resolveAndApplyReporting c src env configPath rules d).1.isOk = true) :
    resolveAndApplyReporting c src env configPath rules d' = resolveAndApplyReporting c src env configPath rules d := by
  have hconfig : d'.config = d.config := by
    induction hfails with
    | refl => rfl
    | tail _ h ih => exact h.config.trans ih
  have hmode : vpnMode c env configPath d' = vpnMode c env configPath d := by rw [vpnMode, hconfig, vpnMode]
  unfold resolveAndApplyReporting at hok ⊢
  rw [hmode]
  dsimp only at hok ⊢
  split at hok
  · cases hok
  rename_i p _
  have hwrites : (writeAll env d p.writes).1.isOk = true := by
    by_contra hfail
    simp [hfail] at hok
  -- each of the four files is written, so nothing is left of what they held
  have hfile : (p.writes.foldl Disk.put d').file = (p.writes.foldl Disk.put d).file := by
    funext f
    cases f <;> rfl
  have hsame : p.writes.foldl Disk.put d' = p.writes.foldl Disk.put d :=
    congrArg₂ Disk.mk hfile ((config_puts p.writes d').trans (hconfig.trans (config_puts p.writes d).symm))
  rw [writeAll_ok hwrites d', writeAll_ok hwrites d, hsame]

end Retried

/-- No rule file yet, and an empty configuration. -/
def blank : Disk (Option Entries) := ⟨fun _ => none, some (some .nil)⟩

/-- The configuration cannot be written at first. -/
theorem next_apply_after_refused : ∃ d', Fails Codec.direct blank d' ∧
    resolveAndApplyReporting Codec.direct noSources quiet "c" (rulesOf [] []) d' =
      resolveAndApplyReporting Codec.direct noSources quiet "c" (rulesOf [] []) blank := by
  obtain ⟨d', h⟩ : ∃ d', Fails Codec.direct blank d' :=
    ⟨_, noSources, { quiet with configWriteError := some [] }, "c", rulesOf [] [], _, rfl⟩
  exact ⟨d', h, next_apply_as_first (.single h) rfl⟩

end TrustTunnel.Gui
