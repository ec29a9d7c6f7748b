import EspAdblocker.Dns.Proxy
import EspAdblocker.Storage.Fitting

/-!
# What a reload of the allowlist allows

Once a reload has got its memory, the lines of the stored text that are not empty
are loaded in their order, and a query is allowlisted exactly if it is one of them,
whatever was loaded before (`allowlist_loader_exact`).
-/

namespace EspAdblocker.Dns

open EspAdblocker.Lib EspAdblocker.Storage

/-- The names that are loaded are those that are looked up. -/
theorem isAllowlisted_eq {names : List (List Byte)} {d : Device} (loaded : AllowlistLoaded names d)
    (free : ∀ name ∈ names, NulFree name) (qname : List Byte) :
    isAllowlisted d qname = .ok (decide (cstr qname ∈ names)) := by
  rw [isAllowlisted, loaded.count]
  by_cases empty : names = []
  · rw [empty]
    rfl
  · obtain ⟨entries, published, shown⟩ := loaded.entries empty
    have some_name : names.length ≠ 0 := by simpa using empty
    have found : (names.any fun entry => strcmp (cstr qname) entry = 0) = decide (cstr qname ∈ names) := by
      rw [Bool.eq_iff_iff, List.any_eq_true, decide_eq_true_eq, ← exists_strcmp_eq_zero_iff (nulFree_cstr qname) free]
      simp only [decide_eq_true_eq]
    rw [if_neg some_name, published]
    simp only [shown, bind, Except.bind, found]
    rfl

/-- These names are loaded, in this order, and they are the names that are allowlisted. -/
structure Allows (names : List (List Byte)) (d : Device) : Prop where
  loaded : AllowlistLoaded names d
  answers : ∀ qname, isAllowlisted d qname = .ok (decide (cstr qname ∈ names))

theorem allows_of_loaded {names : List (List Byte)} {d : Device} (loaded : AllowlistLoaded names d)
    (free : ∀ name ∈ names, NulFree name) : Allows names d :=
  ⟨loaded, isAllowlisted_eq loaded free⟩

/-! ## Reloads -/

/-- A reload from `d` that is refused no memory ends in `d'`. -/
def ReloadsTo (short : Bool) (d d' : Device) : Prop :=
  ∃ tr, (deviceSem short).traced.Runs dnsProxyReloadAllowlistInPlace (d, []) () (d', tr) ∧ tr.any failedAlloc = false

section

variable {short : Bool} {d d' : Device}

/-- From memory that is not used up there is such a reload. -/
theorem exists_reloadsTo (roomy : d.Roomy) : ∃ d', ReloadsTo short d d' := by
  obtain ⟨⟨⟩, d', tr, run, -, quiet⟩ := (dnsProxyReloadAllowlist_fits d).exists_run short
    (fun _ loads => loads.volatile) (fun _ impossible => impossible.elim) roomy
  rw [← dnsProxyReloadAllowlistInPlace_eq] at run
  exact ⟨d', tr, run, not_failedAlloc_of_unhindered quiet⟩

/-- **A reload replaces whatever was loaded by the lines of the stored text.** -/
theorem ReloadsTo.allows {text : List Byte} (stored : d.nvs.allowlistText = some text) (reload : ReloadsTo short d d') :
    Allows (allowlistLines text) d' := by
  obtain ⟨tr, run, quiet⟩ := reload
  rw [dnsProxyReloadAllowlistInPlace_eq] at run
  have loaded := dnsProxyReloadAllowlist_ends d () (d', tr) run
  simp only [quiet, stored, Bool.false_eq_true, if_false, Option.elim_some] at loaded
  exact allows_of_loaded loaded fun _ => nulFree_of_mem_allowlistLines

theorem ReloadsTo.nvs (reload : ReloadsTo short d d') : d'.nvs = d.nvs := by
  obtain ⟨tr, run, -⟩ := reload
  rw [dnsProxyReloadAllowlistInPlace_eq] at run
  have volatile : dnsProxyReloadAllowlist.Only Volatile := dnsProxyReloadAllowlist_loads.mono fun _ h => h.volatile
  exact ((ends_samePersistent volatile d).traced [] () (d', tr) run).nvs

/-- With no text stored, or an empty one, every reload leaves nothing loaded, memory or not. -/
theorem allows_nothing (blank : d.nvs.allowlist = none ∨ d.nvs.allowlist = some [])
    (run : (deviceSem short).Runs dnsProxyReloadAllowlistInPlace d () d') : Allows [] d' := by
  rw [dnsProxyReloadAllowlistInPlace_eq] at run
  obtain ⟨tr, recorded⟩ := Sem.exists_traced run []
  have loaded := dnsProxyReloadAllowlist_ends d () (d', tr) recorded
  have no_lines : d.nvs.allowlistText.elim [] allowlistLines = [] := by
    rcases blank with none_stored | empty
    · rw [Nvs.allowlistText, none_stored]
      rfl
    · rw [Nvs.allowlistText, empty]
      rfl
  rw [no_lines, ite_self] at loaded
  exact allows_of_loaded loaded fun _ => List.not_mem_nil.elim

end

/-! ## The loader -/

/-- **The allowlist loader is exact.** Both passes over a stored text stop at its
terminator, the second with no more entries than the first counted lines; no run
faults, and every store finds its block live and large enough; and a reload that gets
its memory, whatever was loaded before, leaves the lines of the text that are not
empty, as does a second one. -/
theorem allowlist_loader_exact {text : List Byte} (free : NulFree text) (fits : text.length ≤ 2047) (short : Bool) :
    (∀ behind, ∃ lineCount fill, countLines (text ++ 0#8 :: behind) 1 = .ok lineCount ∧
      fillEntries (text ++ 0#8 :: behind) lineCount = .ok (text.length, fill) ∧ fill.starts.length ≤ lineCount) ∧
    (dnsProxyReloadAllowlistInPlace.Only fun op => ∀ fault, op ≠ .abort fault) ∧
    (∀ d v op, (deviceSem short).Performs dnsProxyReloadAllowlistInPlace d v op → v.Defined op) ∧
    (∀ d : Device, d.Roomy → ∃ d', ReloadsTo short d d') ∧
    (∀ d d', d.nvs.allowlist = some text → ReloadsTo short d d' →
      Allows ((text.splitOn 10#8).filter (· ≠ [])) d' ∧
      ∀ d'', ReloadsTo short d' d'' → Allows ((text.splitOn 10#8).filter (· ≠ [])) d'') ∧
    ∀ d d', (d.nvs.allowlist = none ∨ d.nvs.allowlist = some []) →
      (deviceSem short).Runs dnsProxyReloadAllowlistInPlace d () d' → Allows [] d' := by
  refine ⟨fun behind => ?_, ?_, fun d v op does => ?_, fun _ => exists_reloadsTo, fun d d' stored first => ?_, fun _ _ => allows_nothing⟩
  · have room : text.count 10#8 < 1 + text.count 10#8 := by omega
    exact ⟨_, _, countLines_eq free behind 1, fillEntries_eq behind free room, length_starts_le_lines behind free⟩
  · rw [dnsProxyReloadAllowlistInPlace_eq]
    exact dnsProxyReloadAllowlist_loads.mono fun _ loads => loads.ne_abort
  · rw [dnsProxyReloadAllowlistInPlace_eq] at does
    exact ((dnsProxyReloadAllowlist_fits d).performs does).1
  · have fetched : d.nvs.allowlistText = some text := by
      have short : text.length < 2048 := by omega
      rw [Nvs.allowlistText, stored, Option.filter_some, if_pos (decide_eq_true short)]
    have lines : allowlistLines text = (text.splitOn 10#8).filter (· ≠ []) := by
      rw [allowlistLines, cstr_eq_self free]
    rw [← lines]
    exact ⟨first.allows fetched, fun d'' second => second.allows (first.nvs ▸ fetched)⟩

/-- The text `"a\n\nb\n"` allows `a` and `b` and nothing else. -/
theorem gapped_text_allowed : ∃ d',
    ReloadsTo false (noHashesDevice { allowlist := some [97#8, 10#8, 10#8, 98#8, 10#8] }) d' ∧
    Allows [[97#8], [98#8]] d' := by
  have free : NulFree [97#8, 10#8, 10#8, 98#8, 10#8] := by decide
  have lines : ([97#8, 10#8, 10#8, 98#8, 10#8].splitOn 10#8).filter (· ≠ []) = [[97#8], [98#8]] := by decide
  obtain ⟨-, -, -, reloads, exact, -⟩ := allowlist_loader_exact free (by decide) false
  obtain ⟨d', reload⟩ := reloads (noHashesDevice { allowlist := some [97#8, 10#8, 10#8, 98#8, 10#8] })
    fun n => ⟨n, Nat.le_refl n, rfl⟩
  have allowed := (exact _ _ rfl reload).1
  rw [lines] at allowed
  exact ⟨d', reload, allowed⟩

end EspAdblocker.Dns
