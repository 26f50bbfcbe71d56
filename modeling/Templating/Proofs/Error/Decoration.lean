import Mathlib.Data.List.Forall2
import Templating.Proofs.Error.Escapes

/-!
# Reports in colours

Whatever texts an error is made of, as long as there is no escape in them, its report in colours
decorates the plain one.  Each part of a report that is coloured has a blank, a line feed or
punctuation around it, and it is part of a longer report again where one error is the cause of
another.
-/

namespace Templating

theorem decorates_chainText {chain : List (String × Int)}
    (h : ∀ entry ∈ chain, EscapeFree entry.1) :
    Decorates (chainText .coloured chain) (chainText .plain chain) := by
  unfold chainText
  split
  · exact .refl (.literal rfl)
  · refine .intercalate (.literal rfl) (.cons ?_ ?_)
    · exact (Decorates.refl (.literal rfl)).paint [.dim]
    · simp only [List.forall₂_map_left_iff, List.forall₂_map_right_iff, List.forall₂_same]
      intro entry inside
      have place : EscapeFree s!"{entry.1}:{entry.2}" :=
        .append₃ (h entry inside) (.literal rfl) (escapeFree_number _)
      exact ((Decorates.refl place).paint [.cyan]).plain_append (.literal rfl) (.literal rfl)

/-! ## Snippets -/

namespace Snippet

theorem decorates_formatLine {content : String} (h : EscapeFree content) (number : Int)
    (isError : Bool) :
    Decorates (formatLine .coloured number content isError)
      (formatLine .plain number content isError) := by
  have gutter : EscapeFree ((if isError then ">" else " ") ++ Text.padLeft 3 (toString number)) :=
    .append (by split <;> exact .literal rfl)
      (Text.escapeFree_padLeft (escapeFree_number number) 3)
  have body : Decorates
      (if isError then Style.coloured.errorLine content else Style.coloured.dimmed content)
      (if isError then Style.plain.errorLine content else Style.plain.dimmed content) := by
    split
    · exact (Decorates.refl h).paint [.brightRed]
    · exact (Decorates.refl h).paint [.dim]
  exact ((Decorates.refl gutter).paint [.yellow]).between body (.literal rfl)

theorem decorates_format {snippet : Snippet} (h : ∀ line ∈ snippet.lines, EscapeFree line.2) :
    Decorates (snippet.format .coloured) (snippet.format .plain) := by
  have edge : Decorates (Style.coloured.dimmed "   |") (Style.plain.dimmed "   |") :=
    (Decorates.refl (.literal rfl)).paint [.dim]
  have caret (column : Int) : Decorates
      (Style.coloured.dimmed "   |" ++ " " ++ Style.coloured.errorLine (caret column))
      (Style.plain.dimmed "   |" ++ " " ++ Style.plain.errorLine (caret column)) :=
    edge.between ((Decorates.refl (escapeFree_caret column)).paint [.brightRed]) (.literal rfl)
  unfold format
  dsimp only
  refine .intercalate (.literal rfl) ?_
  refine List.rel_append (List.rel_append (List.rel_append (.cons edge .nil) ?_) ?_)
    (.cons edge .nil)
  · simp only [List.forall₂_map_left_iff, List.forall₂_map_right_iff, List.forall₂_same]
    exact fun line inside => decorates_formatLine (h line inside) line.1 _
  · split
    · exact .nil
    · exact .cons (caret _) .nil

theorem escapeFree_build {source : String} (h : EscapeFree source) (errorLine context : Int)
    (column : Option Int) :
    ∀ line ∈ (build source errorLine context column).lines, EscapeFree line.2 := by
  intro line inside
  have shown := List.mem_of_mem_take (List.mem_of_mem_drop (mem_of_mem_numbered inside))
  exact Text.escapeFree_of_mem_lines h shown

end Snippet

/-! ## Syntax errors -/

namespace SyntaxError

variable {error : SyntaxError} (h : ∀ text ∈ error.texts, EscapeFree text)

include h

theorem escapeFree_header (column : Option Int) :
    EscapeFree (locationText error.file error.line column) ∧ EscapeFree error.message := by
  refine ⟨escapeFree_locationText (fun text own => h text ?_) _ _,
    error.problem.escapeFree_message fun text own => h text ?_⟩
  · simp [texts, Option.mem_def.1 own]
  · simp [texts, own]

theorem escapeFree_source {source : String} {line : Int}
    (known : error.place? = some (source, line)) : EscapeFree source := by
  have own : error.source = some source := by
    unfold place? at known
    split at known
    · next given _ =>
      split at known
      · cases known
      · cases known
        exact given
    · cases known
  exact h source (by simp [texts, own])

theorem escapeFree_text : EscapeFree error.text := by
  obtain ⟨location, message⟩ := escapeFree_header h error.column
  have header {place : String} (placed : EscapeFree place) :
      EscapeFree s!"Syntax Error: {error.message}\n  --> {place}" :=
    .append (.append₃ (.literal rfl) message (.literal rfl)) placed
  unfold text
  dsimp only
  split
  · exact header location
  · next source line known =>
    split
    · exact header location
    · split
      · exact header location
      · next content shown =>
        have own : EscapeFree content :=
          Text.escapeFree_of_mem_lines (escapeFree_source h known) (List.mem_of_getElem? shown)
        have number := Text.escapeFree_padLeft (escapeFree_number line) 3
        refine .append (.append₃ (.append₃ (header location) (.literal rfl) number)
          (.literal rfl) own) ?_
        split
        · exact .literal rfl
        · exact .append (.literal rfl) (Snippet.escapeFree_caret _)

theorem decorates_compact : Decorates (error.compact .coloured) (error.compact .plain) := by
  obtain ⟨location, message⟩ := escapeFree_header h none
  have header {place : String} (placed : EscapeFree place) :
      EscapeFree s!"{error.problem.code.text}: {error.message}\n  --> {place}" :=
    .append₃ (.append₃ error.problem.code.escapeFree_text (.literal rfl) message) (.literal rfl)
      placed
  unfold compact
  dsimp only
  split
  · exact .refl (header location)
  · next source line known =>
    have lines := Snippet.escapeFree_build (escapeFree_source h known) line 2 error.column
    exact (Decorates.refl (header location)).between (Snippet.decorates_format lines) (.literal rfl)

end SyntaxError

/-! ## Errors of renders -/

theorem decorates_location {site : Site} (h : ∀ text ∈ site.texts, EscapeFree text) :
    Decorates
      ("  Location: " ++ Style.coloured.location (locationText site.template site.line none))
      ("  Location: " ++ Style.plain.location (locationText site.template site.line none)) := by
  have named : ∀ text ∈ site.template, EscapeFree text := fun text own =>
    h text (by simp [Site.texts, Option.mem_def.1 own])
  have place := escapeFree_locationText named site.line none
  exact ((Decorates.refl place).paint [.cyan]).plain_append (.literal rfl) (.literal rfl)

theorem decorates_chain {site : Site} (h : ∀ text ∈ site.texts, EscapeFree text) :
    Decorates (chainText .coloured site.chain) (chainText .plain site.chain) :=
  decorates_chainText fun entry inside => h entry.1 (by
    simp only [Site.texts, List.mem_append, List.mem_map]
    exact .inr ⟨entry, inside, rfl⟩)

/-- The hints are shown in both forms or in neither. -/
def DecoratesHint (coloured plain : Option String) : Prop :=
  List.Forall₂ Decorates (coloured.filter (· ≠ "")).toList (plain.filter (· ≠ "")).toList

theorem decorates_hint {hint hint' : Option String} (h : DecoratesHint hint hint')
    {before word : String} (plain : EscapeFree before) (closes : ClosesApart before)
    (plain' : EscapeFree word) :
    List.Forall₂ Decorates
      ((hint.filter (· ≠ "")).toList.map fun text =>
        before ++ Style.coloured.hint word ++ " " ++ text)
      ((hint'.filter (· ≠ "")).toList.map fun text =>
        before ++ Style.plain.hint word ++ " " ++ text) := by
  rw [List.forall₂_map_left_iff, List.forall₂_map_right_iff]
  refine h.imp fun text text' shown => ?_
  have painted := ((Decorates.refl plain').paint [.green]).plain_append plain closes
  exact painted.between shown (.literal rfl)

theorem decoratesHint_refl {site : Site} (h : ∀ text ∈ site.texts, EscapeFree text) :
    DecoratesHint site.suggestion site.suggestion := by
  unfold DecoratesHint
  rw [List.forall₂_same]
  intro text shown
  have own := Option.eq_some_of_filter_eq_some (Option.mem_toList.1 shown)
  exact .refl (h text (by simp [Site.texts, own]))

section Reports

variable {site : Site} (h : ∀ text ∈ site.texts, EscapeFree text) {message message' : String}
  (shown : Decorates message message') {hint hint' : Option String}
  (hints : DecoratesHint hint hint')

include h shown hints

theorem decorates_runtimeText :
    Decorates (runtimeText .coloured message hint site)
      (runtimeText .plain message' hint' site) := by
  unfold runtimeText
  dsimp only
  refine .intercalate (.literal rfl) ?_
  refine List.rel_append (List.rel_append (List.rel_append (.cons ?_ .nil) ?_) ?_)
    (decorates_hint hints (.literal rfl) (.literal rfl) (.literal rfl))
  · exact shown.plain_append (.literal rfl) (.literal rfl)
  · split
    · exact .cons (decorates_location h) .nil
    · exact .nil
  · split
    · exact .nil
    · exact .cons (.refl (.literal rfl)) (.cons (decorates_chain h) .nil)

theorem decorates_runtimeCompact (code : Code) :
    Decorates (runtimeCompact .coloured code message hint site)
      (runtimeCompact .plain code message' hint' site) := by
  unfold runtimeCompact
  dsimp only
  refine .intercalate (.literal rfl) ?_
  refine List.rel_append (List.rel_append (.cons ?_ (.cons (decorates_location h) .nil)) ?_)
    (decorates_hint hints (.literal rfl) (.literal rfl) (.literal rfl))
  · have marked := (Decorates.refl code.escapeFree_text).paint [.brightRed, .bold]
    exact marked.between shown (.literal rfl)
  · split
    · exact .nil
    · exact .cons (decorates_chain h) .nil

end Reports

/-! ## Suggestions -/

namespace Text.Similar

theorem better_eq_or (x y : Likeness × String) : better x y = x ∨ better x y = y := by
  unfold better
  split
  · exact .inr rfl
  split
  · exact .inl rfl
  split
  · exact .inr rfl
  · exact .inl rfl

theorem foldl_better_mem (rest : List (Likeness × String)) (first : Likeness × String) :
    rest.foldl better first ∈ first :: rest := by
  induction rest generalizing first with
  | nil => exact List.mem_singleton_self _
  | cons next rest ih =>
      rcases better_eq_or first next with same | same
      · rw [List.foldl_cons, same]
        rcases List.mem_cons.1 (ih first) with own | later
        · exact List.mem_cons.2 (.inl own)
        · exact List.mem_cons_of_mem _ (List.mem_cons_of_mem _ later)
      · rw [List.foldl_cons, same]
        exact List.mem_cons_of_mem _ (ih next)

theorem mem_of_closest? {word found : String} {candidates : List String}
    (h : closest? word candidates = some found) : found ∈ candidates := by
  unfold closest? at h
  dsimp only at h
  split at h
  · cases h
  · next first rest close =>
    have member := foldl_better_mem rest first
    rw [← close] at member
    obtain ⟨candidate, inside, same⟩ := List.mem_map.1 (List.mem_filter.1 member).1
    rw [← Option.some.inj h, ← same]
    exact inside

end Text.Similar

namespace Error

theorem suggestion?_unknownTag (style : Style) (name : String) (available : List String)
    (site : Site) :
    (suggestion? style (.unknownTag name available site)).filter (· ≠ "") =
      (Text.Similar.closest? name available).map fun found =>
        "Did you mean '" ++ style.suggestion found ++ "'?" := by
  change ((Text.Similar.closest? name available).map fun found =>
    "Did you mean '" ++ style.suggestion found ++ "'?").filter (· ≠ "") = _
  cases Text.Similar.closest? name available with
  | none => rfl
  | some found =>
      rw [Option.map_some, Option.filter_some_pos]
      simp

theorem decoratesHint_unknownTag {name : String} {available : List String}
    (h : ∀ text ∈ available, EscapeFree text) (site : Site) :
    DecoratesHint (suggestion? .coloured (.unknownTag name available site))
      (suggestion? .plain (.unknownTag name available site)) := by
  unfold DecoratesHint
  rw [suggestion?_unknownTag, suggestion?_unknownTag]
  cases similar : Text.Similar.closest? name available with
  | none => exact .nil
  | some found =>
      have free : EscapeFree found := h found (Text.Similar.mem_of_closest? similar)
      have painted := (Decorates.refl free).paint [.brightGreen, .bold]
      refine .cons ?_ .nil
      exact (painted.plain_append (.literal rfl) (.literal rfl)).append_plain (.literal rfl)
        (.literal rfl)

/-! ## Reports -/

theorem append_ne_empty {a : String} (h : a ≠ "") (b : String) : a ++ b ≠ "" := by
  simp [h]

theorem runtimeText_ne (style : Style) (message : String) (hint : Option String) (site : Site) :
    runtimeText style message hint site ≠ "" := by
  have begun : "Runtime Error: " ++ message ≠ "" := append_ne_empty (by decide) message
  have joined (rest : List String) :
      String.intercalate "\n" (("Runtime Error: " ++ message) :: rest) ≠ "" := by
    cases rest with
    | nil => rwa [String.intercalate_singleton]
    | cons next rest =>
        rw [String.intercalate_cons_cons]
        exact append_ne_empty (append_ne_empty begun _) _
  unfold runtimeText
  dsimp only
  rw [List.append_assoc, List.append_assoc, List.singleton_append]
  exact joined _

theorem encodingText_ne (path message : String) : encodingText path message ≠ "" :=
  append_ne_empty (append_ne_empty (append_ne_empty (by decide) path) _) message

/-- A report is empty in both forms or in neither. -/
theorem text_eq_empty_iff (e : Error) : e.text .coloured = "" ↔ e.text .plain = "" := by
  cases e with
  | fault | plain | notFound | malformed => exact Iff.rfl
  | encoding | encodingFailed => exact iff_of_false (encodingText_ne _ _) (encodingText_ne _ _)
  | runtime | contract | unknownTag | tagFailed =>
      exact iff_of_false (runtimeText_ne _ _ _ _) (runtimeText_ne _ _ _ _)

theorem decorates_encodingText {path message message' : String} (h : EscapeFree path)
    (shown : Decorates message message') :
    Decorates (encodingText path message) (encodingText path message') := by
  have placed : EscapeFree ("Cannot encode value at " ++ path) := .append (.literal rfl) h
  exact (Decorates.refl placed).between shown (.literal rfl)

theorem decorates_tagFailedText {name cause cause' : String} (h : EscapeFree name) (e : Error)
    (shown : Decorates cause cause') :
    Decorates (tagFailedText name e.className cause) (tagFailedText name e.className cause') := by
  have named : EscapeFree ("Tag '" ++ name ++ "' failed: " ++ e.className) :=
    .append (.append₃ (.literal rfl) h (.literal rfl)) e.escapeFree_className
  exact (Decorates.refl named).between shown (.literal rfl)

theorem escapeFree_unknownTagText {name : String} (h : EscapeFree name) :
    EscapeFree (unknownTagText name) :=
  .append₃ (.literal rfl) h (.literal rfl)

theorem decorates_text (e : Error) (h : ∀ text ∈ e.texts, EscapeFree text) :
    Decorates (e.text .coloured) (e.text .plain) := by
  induction e with
  | fault f => exact .refl (f.escapeFree_message h)
  | plain message code => exact .refl (h message List.mem_cons_self)
  | notFound path => exact .refl (.append (.literal rfl) (h path List.mem_cons_self))
  | malformed error => exact .refl (SyntaxError.escapeFree_text h)
  | encoding problem path =>
      obtain ⟨inProblem, inPath⟩ := List.forall_mem_append.1 h
      have message := problem.escapeFree_message inProblem
      exact decorates_encodingText (inPath path List.mem_cons_self) (.refl message)
  | encodingFailed cause path ih =>
      obtain ⟨inCause, inPath⟩ := List.forall_mem_append.1 h
      refine decorates_encodingText (inPath path List.mem_cons_self) ?_
      by_cases empty : cause.text .plain = ""
      · rw [if_pos empty, if_pos (cause.text_eq_empty_iff.2 empty)]
        exact .refl cause.escapeFree_className
      · rw [if_neg empty, if_neg (mt cause.text_eq_empty_iff.1 empty)]
        exact ih inCause
  | runtime problem site =>
      obtain ⟨inProblem, inSite⟩ := List.forall_mem_append.1 h
      exact decorates_runtimeText inSite (.refl (problem.escapeFree_message inProblem))
        (decoratesHint_refl inSite)
  | contract problem site =>
      obtain ⟨inProblem, inSite⟩ := List.forall_mem_append.1 h
      exact decorates_runtimeText inSite (.refl (problem.escapeFree_message inProblem))
        (decoratesHint_refl inSite)
  | unknownTag name available site =>
      obtain ⟨inNames, inSite⟩ := List.forall_mem_append.1 h
      obtain ⟨named, known⟩ := List.forall_mem_cons.1 inNames
      exact decorates_runtimeText inSite (.refl (escapeFree_unknownTagText named))
        (decoratesHint_unknownTag known site)
  | tagFailed name cause site ih =>
      obtain ⟨inTag, inSite⟩ := List.forall_mem_append.1 h
      obtain ⟨named, inCause⟩ := List.forall_mem_cons.1 inTag
      exact decorates_runtimeText inSite (decorates_tagFailedText named cause (ih inCause))
        (decoratesHint_refl inSite)

/-- A code is put in front of both forms of a report or of neither. -/
theorem decorates_withCode {report report' : String} (shown : Decorates report report')
    (code : Option Code) : Decorates (withCode code report) (withCode code report') := by
  cases code with
  | none => exact shown
  | some code =>
      unfold withCode
      dsimp only
      rw [shown.occursIn_eq]
      split
      · exact shown
      · exact (Decorates.refl code.escapeFree_text).between shown (.literal rfl)

theorem decorates_compact (e : Error) (h : ∀ text ∈ e.texts, EscapeFree text) :
    Decorates (e.compact .coloured) (e.compact .plain) := by
  unfold compact
  cases e with
  | fault | plain | notFound | encoding | encodingFailed =>
      exact decorates_withCode (decorates_text _ h) (code? _)
  | malformed error => exact SyntaxError.decorates_compact h
  | runtime problem site =>
      obtain ⟨inProblem, inSite⟩ := List.forall_mem_append.1 h
      exact decorates_runtimeCompact inSite (.refl (problem.escapeFree_message inProblem))
        (decoratesHint_refl inSite) _
  | contract problem site =>
      obtain ⟨inProblem, inSite⟩ := List.forall_mem_append.1 h
      exact decorates_runtimeCompact inSite (.refl (problem.escapeFree_message inProblem))
        (decoratesHint_refl inSite) _
  | unknownTag name available site =>
      obtain ⟨inNames, inSite⟩ := List.forall_mem_append.1 h
      obtain ⟨named, known⟩ := List.forall_mem_cons.1 inNames
      exact decorates_runtimeCompact inSite (.refl (escapeFree_unknownTagText named))
        (decoratesHint_unknownTag known site) _
  | tagFailed name cause site =>
      obtain ⟨inTag, inSite⟩ := List.forall_mem_append.1 h
      obtain ⟨named, inCause⟩ := List.forall_mem_cons.1 inTag
      have shown := cause.decorates_text inCause
      exact decorates_runtimeCompact inSite (decorates_tagFailedText named cause shown)
        (decoratesHint_refl inSite) _

end Error

/-- Without its colour sequences a report in colours is the plain one, and so are the renders around
a failure and the lines around an error. -/
theorem stripColours_reports :
    (∀ e : Error, (∀ text ∈ e.texts, EscapeFree text) →
      stripColours (e.text .coloured) = e.text .plain ∧
        stripColours (e.compact .coloured) = e.compact .plain) ∧
    (∀ chain : List (String × Int), (∀ entry ∈ chain, EscapeFree entry.1) →
      stripColours (chainText .coloured chain) = chainText .plain chain) ∧
    ∀ snippet : Snippet, (∀ line ∈ snippet.lines, EscapeFree line.2) →
      stripColours (snippet.format .coloured) = snippet.format .plain := by
  refine ⟨fun e free => ⟨?_, ?_⟩, fun chain free => ?_, fun snippet free => ?_⟩
  · exact (e.decorates_text free).stripColours_eq
  · exact (e.decorates_compact free).stripColours_eq
  · exact (decorates_chainText free).stripColours_eq
  · exact (Snippet.decorates_format free).stripColours_eq

/-- An object that cannot be encoded, because it renders a template of its own and fails. -/
def cardError : Error :=
  .encodingFailed
    (.runtime (.other "no card") { template := some "card.html", chain := [("base.html", 4)] })
    "$.card"

def cardSnippet : Snippet := ⟨[(1, "<p>"), (2, "\x7b% card %\x7d")], 2, some 3⟩

/-- The colours in the report of the cause are part of the report of the error. -/
theorem stripColours_card :
    (stripColours (cardError.text .coloured) = cardError.text .plain ∧
      stripColours (cardError.compact .coloured) = cardError.compact .plain) ∧
    stripColours (chainText .coloured [("base.html", 4)]) = chainText .plain [("base.html", 4)] ∧
    stripColours (cardSnippet.format .coloured) = cardSnippet.format .plain := by
  obtain ⟨errors, chains, snippets⟩ := stripColours_reports
  refine ⟨errors cardError ?_, chains _ ?_, snippets _ ?_⟩
  · decide +kernel
  · decide +kernel
  · decide +kernel

end Templating
