import TextTemplate.Proofs.Compile.Accounting
import TextTemplate.Proofs.Compile.Agreement

/-!
# How names are resolved

A journal of compiling shows the active libraries at the time of every inquiry, and they are known from the
loads before it. If the latest library wins, then each tag and each filter comes from the last of these that
has it. The loads themselves are those of the `load` tags that were dispatched, in order.
-/

namespace TextTemplate

namespace Entry

variable {env : Environment} {e : Entry}

end Entry

namespace Environment

open JournalM

variable {env : Environment} {roles : TagRoles}

/-- A tag that only reads is run as it is, and leaves no entry. -/
theorem quiet_journal {parse : List String → JournalM (List Node)} {call : String → String → JournalM (Option Node)}
    {script : TagScript} (h : script.IsQuiet) (handle : Handle) :
    script.journal env parse call = quietly (script.run handle) := by
  have hrequest {α : Type} {r : Request α} (hr : r.isQuiet = true) :
      r.journal env parse call = quietly (r.run handle) := by
    cases r with
    | parse | load | filters | callTag => cases hr
    | _ => rfl
  induction script with
  | done node => rfl
  | raise e => rfl
  | ask r continuation ih =>
    rw [TagScript.journal, hrequest h.1]
    simp only [ih _ (h.2 _)]
    exact quietly_bind _ _
  | attempt r continuation ih =>
    rw [TagScript.journal, hrequest h.1]
    simp only [ih _ (h.2 _)]
    exact quietly_bind (CompileM.attempt (r.run handle)) _

/-- A tag that keeps its inside from the compiler is dispatched, and nothing else is asked for. -/
theorem opaque_journal {parse : List String → JournalM (List Node)} {t : Token} {number : Nat}
    {factory : TagFactory} {d : Directive} {s : Session}
    (howner : env.owner? s.active t.tagName = some (number, factory))
    (hrole : roles number t.tagName = .standard d) (hd : d.isOpaque = true) (handle : Handle)
    (stop : List String) : env.journalBlock roles (some parse) t stop s =
      ([⟨s.active, .tag t (some (number, factory))⟩],
        CompileM.withOpenTag t ((d.script t.tagContent).run handle) s) := by
  rw [journalBlock, active_bind, howner]
  simp only [hrole, TagRole.script, quiet_journal (d.script_isQuiet hd t.tagContent) handle]
  rfl

/-- What all filters of the environment give to the calls that are made with them, all calls of a compiled
template have. -/
theorem given_of_compile {P : FilterCall → Prop} (hroles : env.TagsSuit roles) (hhosts : roles.HostsKeepTo true P)
    (hfilters : ∀ active, (env.filterLookup active).Gives P) {base : List Nat} {source : String} {nodes : List Node}
    (h : env.compile base source = .ok nodes) : ∀ c ∈ Node.allCalls nodes, P c := by
  have hjournals := at_journals hroles maxOpenTags [] (Session.ofSource source base)
  have hright := hjournals.right base [] (activeAfter_nil base).symm
  have hgives : ∀ e ∈ (env.journalAt roles maxOpenTags []).entries (Session.ofSource source base), e.Gives P := by
    intro e he
    obtain ⟨before, after, hsplit⟩ := List.append_of_mem he
    rw [hsplit] at hright
    have hanswered := hright.of_split.2
    obtain ⟨active, inquiry⟩ := e
    cases inquiry with
    | tag | call | load => trivial
    | header filters | «variable» t filters =>
      obtain rfl : filters = env.filterLookup active := hanswered
      exact hfilters active
  obtain ⟨s', hrun⟩ := exists_parse_of_compile_eq_ok h
  exact (at_accounts hhosts maxOpenTags [] _ hgives).2 nodes s' (hjournals.plain.trans hrun)

/-- What the tags of the standard libraries and of the marker library do. -/
def exclaimingRoles : TagRoles
  | 0, name => (Directive.ofName? name).elim (.host fun _ => .done none) .standard
  | _, _ => .host fun _ => .done (some (.marker "!"))

end Environment

end TextTemplate
