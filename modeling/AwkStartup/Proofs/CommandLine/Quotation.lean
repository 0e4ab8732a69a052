import AwkStartup.Proofs.CommandLine.Applying

/-!
# Remarks without what they quote

Remarks on a group quote the rest of it. Groups that are read alike may differ in what their
remarks quote, so they are compared without quotations.
-/

namespace AwkStartup

/-- A remark without the group it quotes. -/
def Notice.unquoted : Notice → Notice
  | vacuous _ => vacuous ""
  | unexpectedValue _ => unexpectedValue ""
  | notice => notice

def Effect.unquoted : Effect → Effect
  | call c => call c
  | remark notice => remark notice.unquoted

def Directive.unquoted : Directive → Directive
  | notice remark => notice remark.unquoted
  | d => d

namespace CommandLine

def Progress.unquoted (p : Progress) : Progress :=
  { p with effects := p.effects.map Effect.unquoted }

theorem calls_unquoted (p : Progress) : p.unquoted.calls = p.calls := by
  unfold Progress.calls Progress.unquoted
  rw [List.filterMap_map]
  congr 1
  funext e
  cases e <;> rfl

theorem notices_unquoted (p : Progress) :
    p.unquoted.notices = p.notices.map Notice.unquoted := by
  unfold Progress.notices Progress.unquoted
  rw [List.filterMap_map, List.map_filterMap]
  congr 1
  funext e
  cases e <;> rfl

/-- Progress that is the same without quotations: the same bindings, calls and number of
remarks. -/
theorem same_of_unquoted_eq {p q : Progress} (h : p.unquoted = q.unquoted) :
    p.globals = q.globals ∧ p.calls = q.calls ∧ p.notices.length = q.notices.length := by
  have hglobals : p.unquoted.globals = q.unquoted.globals := by rw [h]
  refine ⟨hglobals, ?_, ?_⟩
  · rw [← calls_unquoted p, ← calls_unquoted q, h]
  · have hnotices := congrArg (fun r => r.notices.length) h
    simpa [notices_unquoted] using hnotices

theorem unquoted_remark (p : Progress) (n : Notice) :
    (p.remark n).unquoted = p.unquoted.remark n.unquoted := by
  simp [Progress.unquoted, Progress.remark, Effect.unquoted]

theorem conclude_unquoted (p : Progress) (ending : Ending) :
    conclude p.unquoted ending = conclude p ending :=
  @conclude_retell (List.map Effect.unquoted) id p ending

variable [Libraries]

theorem apply_unquoted (p : Progress) (d : Directive) :
    apply p.unquoted d.unquoted = (apply p d).map Progress.unquoted := by
  have hcall (effects : List Effect) (c : Call) :
      (effects ++ [Effect.call c]).map Effect.unquoted =
        effects.map Effect.unquoted ++ [Effect.call c] := by
    simp [Effect.unquoted]
  cases d with
  | notice n => simp [apply, Directive.unquoted, Except.map, unquoted_remark]
  | ignoredLong token =>
    by_cases hreported : p.longReported = true
    · have hsame : p.unquoted.longReported = true := hreported
      simp [apply, Directive.unquoted, hsame, hreported, Except.map]
    · simp [apply, Directive.unquoted, hreported, Except.map, Progress.unquoted,
        Progress.remark, Effect.unquoted, Notice.unquoted]
  | _ => exact @apply_retell _ id _ hcall p _ rfl

theorem applyAll_unquoted (p : Progress) (ds : List Directive) :
    applyAll p.unquoted (ds.map Directive.unquoted) =
      ((applyAll p ds).1.unquoted, (applyAll p ds).2) :=
  applyAll_map (fun q d _ => apply_unquoted q d) p

/-- Directives that are the same without quotations do the same without quotations, and fail
alike. -/
theorem applyAll_congr_unquoted {ds es : List Directive}
    (hsame : ds.map Directive.unquoted = es.map Directive.unquoted) (p : Progress) :
    (applyAll p ds).1.unquoted = (applyAll p es).1.unquoted ∧
      (applyAll p ds).2 = (applyAll p es).2 := by
  have hds := applyAll_unquoted p ds
  rw [hsame, applyAll_unquoted p es] at hds
  obtain ⟨hprogress, hfault⟩ := Prod.mk.inj hds
  exact ⟨hprogress.symm, hfault.symm⟩

end CommandLine
end AwkStartup
