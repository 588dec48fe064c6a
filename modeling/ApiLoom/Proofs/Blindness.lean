import ApiLoom.Proofs.InPlace

/-!
# Blindness

Two runs of a script may start out differently: in some local variables, in some stash entries,
and in what the stage before handed on.  A term is blind to these where its value is the same in
both.
-/

namespace ApiLoom

namespace Template

open Script

/-! ### Where runs may differ -/

/-- The local variables and the stash entries in which two runs may differ. -/
structure Veil where
  locals : List String
  keys : List String

/-- Two runs differ at most behind the veil, and in the result of the stage before. -/
structure Veil.Covers (veil : Veil) (w w' : World) (s s' : State) : Prop where
  world : ∃ previous, w' = { w with context := { w.context with previous := previous } }
  args : s'.args = s.args
  output : s'.output = s.output
  filter : s'.filter = s.filter
  stash : ∀ key, key ∉ veil.keys → s'.stash.get? key = s.stash.get? key
  locals : ∀ name, name ∉ veil.locals → s'.local? name = s.local? name

namespace Veil.Covers

variable {veil : Veil} {w w' : World} {s s' : State}

theorem library (covers : veil.Covers w w' s s') : w'.library = w.library := by
  obtain ⟨previous, rfl⟩ := covers.world
  rfl

theorem lookup (covers : veil.Covers w w' s s') {name : String} (own : name ≠ "ctx")
    (seen : name ∉ veil.locals) : w'.lookup s' name = w.lookup s name := by
  simp [World.lookup, own, covers.locals name seen]

theorem printed (covers : veil.Covers w w' s s') : w'.printed = w.printed := by
  funext v
  simp [World.printed, covers.library]

/-- Of the context, a script may look at all but the stash and the result of the stage before. -/
theorem context (covers : veil.Covers w w' s s') {name : String} (other : name ≠ "stash")
    (later : name ≠ "prev") :
    (w'.contextValue s').field name = (w.contextValue s).field name := by
  obtain ⟨previous, rfl⟩ := covers.world
  have stashed : decide (Scalar.text "stash" = .text name) = false := by simpa using other.symm
  have handed : decide (Scalar.text "prev" = .text name) = false := by simpa using later.symm
  simp only [World.contextValue, Value.object, Value.field_map, List.map_cons, List.map_nil,
    Entries.get?, List.find?_cons, covers.args, stashed, handed]

theorem bind (covers : veil.Covers w w' s s') {name : String} {v v' : Value}
    (same : name ∉ veil.locals → v' = v) : veil.Covers w w' (s.bind name v) (s'.bind name v') where
  world := covers.world
  args := covers.args
  output := covers.output
  filter := covers.filter
  stash := covers.stash
  locals other seen := by
    by_cases set : other = name
    · subst set
      rw [State.local?_bind_self, State.local?_bind_self, same seen]
    · rw [State.local?_bind_of_ne set, State.local?_bind_of_ne set, covers.locals other seen]

theorem put (covers : veil.Covers w w' s s') (key : String) (v : Value) :
    veil.Covers w w' (s.flag key v) (s'.flag key v) where
  world := covers.world
  args := covers.args
  output := covers.output
  filter := covers.filter
  stash other seen := by
    by_cases set : other = key
    · subst set
      rw [State.flag, State.flag, Entries.get?_put_self, Entries.get?_put_self]
    · rw [State.flag, State.flag, Entries.get?_put_of_ne set, Entries.get?_put_of_ne set,
        covers.stash other seen]
  locals := covers.locals

theorem handOut (covers : veil.Covers w w' s s') (v : Value) :
    veil.Covers w w' (s.handOut v) (s'.handOut v) :=
  ⟨covers.world, covers.args, rfl, covers.filter, covers.stash, covers.locals⟩

/-- A change leaves no other difference behind, if it does the same to the stash. -/
theorem change (covers : veil.Covers w w' s s') {f : Value → Value}
    (stashed : veil.Covers w w' { s with stash := (f (.map s.stash)).entries }
      { s' with stash := (f (.map s'.stash)).entries }) (of : Term) :
    veil.Covers w w' (s.change f of) (s'.change f of) := by
  unfold State.change
  split
  · exact stashed
  · next name =>
    rw [covers.args]
    exact ⟨covers.world, rfl, covers.output, covers.filter, covers.stash, covers.locals⟩
  · next name => exact covers.bind fun seen => congrArg f (covers.locals name seen)
  · exact covers

end Veil.Covers

/-! ### Blind terms -/

namespace Term

variable {veil : Veil} {name text : String} {t u : Term}

/-- The value of the term is the same in both runs. -/
def Blind (veil : Veil) (t : Term) : Prop :=
  ∀ ⦃w w' s s'⦄, veil.Covers w w' s s' → t.eval w' s' = t.eval w s

theorem blind_var (own : name ≠ "ctx") (seen : name ∉ veil.locals) :
    (var name).Blind veil := by
  intro w w' s s' covers
  rw [eval, eval, covers.lookup own seen]

theorem Blind.member (blind : t.Blind veil) (name : String) :
    (t.member name).Blind veil := by
  intro w w' s s' covers
  rw [eval, eval, blind covers]

theorem Blind.item (blind : t.Blind veil) (key : u.Blind veil) : (t.item u).Blind veil := by
  intro w w' s s' covers
  rw [eval, eval, blind covers, key covers]

theorem evals_blind {terms : List Term} (blind : ∀ t ∈ terms, t.Blind veil) {w w' : World}
    {s s' : State} (covers : veil.Covers w w' s s') : evals w' s' terms = evals w s terms := by
  rw [evals_eq_map, evals_eq_map]
  exact List.map_congr_left fun t member => blind t member covers

theorem Blind.call {method : String} {arguments : List Term} (blind : t.Blind veil)
    (given : ∀ a ∈ arguments, a.Blind veil) : (t.call method arguments).Blind veil := by
  intro w w' s s' covers
  simp only [eval, blind covers, evals_blind given covers, covers.library]

theorem blind_quoted (text : String) : (quoted text).Blind veil := fun _ _ _ _ _ => by
  rw [eval, eval]

theorem blind_number (n : Int) : (number n).Blind veil := fun _ _ _ _ _ => by
  rw [eval, eval]

theorem blind_truth (b : Bool) : (truth b).Blind veil := fun _ _ _ _ _ => by rw [eval, eval]

theorem blind_null : null.Blind veil := fun _ _ _ _ _ => by rw [eval, eval]

theorem blind_emptyMap : emptyMap.Blind veil := fun _ _ _ _ _ => by rw [eval, eval]

theorem blind_list {items : List Term} (blind : ∀ t ∈ items, t.Blind veil) :
    (list items).Blind veil := by
  intro w w' s s' covers
  rw [eval, eval, evals_blind blind covers]

theorem Blind.entry (key : t.Blind veil) (value : u.Blind veil) :
    (entry t u).Blind veil := by
  intro w w' s s' covers
  rw [eval, eval, key covers, value covers, covers.printed]

theorem Blind.sum (left : t.Blind veil) (right : u.Blind veil) : (sum t u).Blind veil := by
  intro w w' s s' covers
  simp only [eval, left covers, right covers]

theorem Blind.negated (blind : t.Blind veil) : (negated t).Blind veil := by
  intro w w' s s' covers
  rw [eval, eval, blind covers]

theorem blind_context (other : name ≠ "stash") (later : name ≠ "prev") :
    (context.member name).Blind veil := by
  intro w w' s s' covers
  simp only [context, eval, World.lookup, if_true, covers.context other later]

theorem blind_stash {key : String} (seen : key ∉ veil.keys) : (stash key).Blind veil := by
  intro w w' s s' covers
  rw [eval_stash, eval_stash, covers.stash key seen]

end Term

/-! ### Blind texts -/

namespace Veil

variable {veil : Veil} {name : String}

/-- Where the path leads is the same in both runs. -/
def Shows (veil : Veil) (path : List String) : Prop :=
  ∀ ⦃w w' s s'⦄, veil.Covers w w' s s' → w'.follow s' path = w.follow s path

theorem shows_local (own : name ≠ "ctx") (seen : name ∉ veil.locals) (rest : List String) :
    veil.Shows (name :: rest) := by
  intro w w' s s' covers
  simp only [World.follow, covers.lookup own seen]

theorem shows_context (other : name ≠ "stash") (later : name ≠ "prev")
    (rest : List String) : veil.Shows ("ctx" :: name :: rest) := by
  intro w w' s s' covers
  have same := covers.context other later
  simp only [World.follow, World.lookup, if_true, List.foldl_cons, same]

/-- The text that the references in it turn into is the same in both runs. -/
def ShowsText (veil : Veil) (text : List Char) : Prop :=
  ∀ ⦃w w' s s'⦄, veil.Covers w w' s s' →
    Text.expand (w'.reference s') none text = Text.expand (w.reference s) none text

theorem showsText_plain {text : List Char} (plain : '$' ∉ text) : veil.ShowsText text :=
  fun _ _ _ _ _ => by rw [Text.expand_plain plain, Text.expand_plain plain]

theorem showsText_reference {front name rest : List Char} (plain : '$' ∉ front)
    (path : name.all Text.isPathChar = true) (ends : ∀ c ∈ rest.head?, Text.isPathChar c = false)
    (shows : veil.Shows (Text.path name)) (later : veil.ShowsText rest) :
    veil.ShowsText (front ++ '$' :: (name ++ rest)) := by
  intro w w' s s' covers
  have read : w'.reference s' name = w.reference s name := by
    simp only [World.reference, shows covers, covers.printed]
  rw [Text.expand_of_notMem plain, Text.expand_of_notMem plain, Text.expand_path path ends,
    Text.expand_path path ends, read, later covers]

end Veil

namespace Term

variable {veil : Veil} {name text : String}

theorem blind_plain (shows : veil.ShowsText text.toList) : (plain text).Blind veil := by
  intro w w' s s' covers
  rw [eval, eval, World.expand, World.expand, shows covers]

/-- What is not a path is left to the library. -/
theorem blind_verbatim
    (shows : ∀ rest, text.toList = '$' :: rest → veil.Shows (Text.path rest)) :
    (verbatim text).Blind veil := by
  intro w w' s s' covers
  rw [eval, eval]
  unfold World.read
  split
  · next rest chars => rw [covers.library, shows rest chars covers]
  · rw [covers.library]

/-- What stands in a part of the context that is not behind the veil. -/
theorem blind_part {part : String} (whole : '.' ∉ part.toList) (other : part ≠ "stash")
    (later : part ≠ "prev") (key : String) :
    (verbatim ("$ctx." ++ part ++ "." ++ key)).Blind veil := by
  refine blind_verbatim fun rest chars => ?_
  have spelled : ("$ctx." ++ part ++ "." ++ key).toList =
      '$' :: ("ctx".toList ++ '.' :: (part.toList ++ '.' :: key.toList)) := by
    have lead : "$ctx.".toList = '$' :: ("ctx".toList ++ ['.']) := rfl
    have dot : ".".toList = ['.'] := rfl
    simp only [String.toList_append, lead, dot, List.cons_append, List.append_assoc,
      List.nil_append]
  obtain rfl := (List.cons.inj (spelled.symm.trans chars)).2
  rw [path_cons _ (by decide), path_cons _ whole, String.ofList_toList, String.ofList_toList]
  exact Veil.shows_context other later _

theorem blind_argument (key : String) : (verbatim (argument key)).Blind veil :=
  blind_part (by decide : '.' ∉ "args".toList) (by decide) (by decide) key

theorem blind_arguments : (verbatim "$ctx.args").Blind veil := by
  refine blind_verbatim fun rest chars => ?_
  obtain rfl := (List.cons.inj (chars.symm.trans (rfl : _ = '$' :: "ctx.args".toList))).2
  exact Veil.shows_context (by decide) (by decide) []

theorem blind_sourceField (key : String) : (verbatim (sourceField key)).Blind veil :=
  blind_part (by decide : '.' ∉ "source".toList) (by decide) (by decide) key

theorem blind_input (seen : "input" ∉ veil.locals) (key : String) :
    (verbatim ("$input." ++ key)).Blind veil := by
  refine blind_verbatim fun rest chars => ?_
  have spelled : ("$input." ++ key).toList = '$' :: ("input".toList ++ '.' :: key.toList) := by
    have lead : "$input.".toList = '$' :: ("input".toList ++ ['.']) := rfl
    simp only [String.toList_append, lead, List.cons_append, List.append_assoc, List.nil_append]
  obtain rfl := (List.cons.inj (spelled.symm.trans chars)).2
  rw [path_cons _ (by decide)]
  exact Veil.shows_local (by decide) seen _

theorem blind_variable (word : Text.IsWord name) (own : name ≠ "ctx") (seen : name ∉ veil.locals) :
    (verbatim ("$" ++ name)).Blind veil := by
  refine blind_verbatim fun rest chars => ?_
  have spelled : ("$" ++ name).toList = '$' :: name.toList := by
    rw [String.toList_append]
    rfl
  obtain rfl := (List.cons.inj (spelled.symm.trans chars)).2
  rw [path_word word]
  exact Veil.shows_local own seen _

theorem blind_called (called : '(' ∈ text.toList) : (verbatim text).Blind veil := by
  intro w w' s s' covers
  rw [eval, eval, read_called called, read_called called, covers.library]

end Term

/-! ### Runs that end alike -/

/-- Two runs of a template end alike. -/
inductive Veil.Meet (veil : Veil) (w w' : World) : Step → Step → Prop
  | next {s s' : State} (covers : veil.Covers w w' s s') : veil.Meet w w' (.next s) (.next s')
  | left {s s' : State} (covers : veil.Covers w w' s s') : veil.Meet w w' (.left s) (.left s')
  | stopped {s s' : State} (covers : veil.Covers w w' s s') :
    veil.Meet w w' (.stopped s) (.stopped s')
  | refused : veil.Meet w w' .refused .refused
  | failed (message kind : Value) : veil.Meet w w' (.failed message kind) (.failed message kind)

theorem Veil.Meet.andThen {veil : Veil} {w w' : World} {step step' : Step}
    {rest rest' : State → Step} (met : veil.Meet w w' step step')
    (later : ∀ s s', veil.Covers w w' s s' → veil.Meet w w' (rest s) (rest' s')) :
    veil.Meet w w' (step.andThen rest) (step'.andThen rest') := by
  cases met with
  | next covers => exact later _ _ covers
  | left covers => exact .left covers
  | stopped covers => exact .stopped covers
  | refused => exact .refused
  | failed message kind => exact .failed message kind

section Effects

variable {veil : Veil} {w w' : World} {s s' : State}

theorem Veil.Covers.reflect (covers : veil.Covers w w' s s') (items : Term) (i : Nat)
    (before after : Value) :
    veil.Covers w w' (s.reflect items i before after) (s'.reflect items i before after) := by
  unfold State.reflect
  split
  · exact covers
  · split
    · exact covers.bind fun seen => by rw [covers.locals _ seen]
    · exact covers

/-- Turn by turn, the two loops stay alike. -/
theorem loopInPlace_meets {name : String} {body body' : State → Step} (seen : name ∉ veil.locals)
    (turn : ∀ s s', veil.Covers w w' s s' → veil.Meet w w' (body s) (body' s')) (items : Term)
    (i : Nat) (values : List Value) (covers : veil.Covers w w' s s') :
    veil.Meet w w' (loopInPlace items name body i values s)
      (loopInPlace items name body' i values s') := by
  induction values generalizing i s s' with
  | nil => exact .next covers
  | cons v rest ih =>
    have started : veil.Covers w w' (s.bind name v) (s'.bind name v) := covers.bind fun _ => rfl
    have met := turn _ _ started
    rw [loopInPlace, loopInPlace]
    generalize body (s.bind name v) = step, body' (s'.bind name v) = step' at met ⊢
    cases met with
    | next after =>
      dsimp only
      rw [after.locals name seen]
      exact ih (i + 1) (after.reflect items i v _)
    | left after =>
      dsimp only
      rw [after.locals name seen]
      exact .next (after.reflect items i v _)
    | stopped after => exact .stopped after
    | refused => exact .refused
    | failed message kind => exact .failed message kind

end Effects

end Template

end ApiLoom
