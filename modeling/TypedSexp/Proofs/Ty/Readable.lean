import Mathlib.Data.List.Nodup
import TypedSexp.Proofs.Number.Digits
import TypedSexp.Proofs.Ty.Renaming

/-!
# Rendered types are read in one way

The pretty forms of types show all of the types but the identity of their variables. Two lists
of registered types have the same pretty forms exactly if a renaming that pairs off their
variables leads from one list to the other (`Ty.prettyAll_eq_iff`).

That a renaming does not show was proved with the renamings. The other direction is that a
rendered type can be read in one way only. A name goes on as far as its characters do, so it is
known where it ends, and `'t` is not the start of `'t26`. What stands after a name tells an
application from an atom, and an opening parenthesis is the start of a function. Nothing shows
where the result of a function ends, so reading goes from left to right: a type is read before
a text that goes on with no name and no application (`Ty.Registered.reads`).

Only registered types are meant: those built from numbers, strings, arrays, functions and variables.
Other names could be rendered as a variable is.
-/

namespace TypedSexp

namespace Ty

/-- The types that are built from the registered ones, variables, functions and arrays. -/
inductive Registered : Ty → Prop
  | atom {t : Ty} (known : t ∈ [number, string, arrayConstructor]) : Registered t
  | var (x : TyVar) : Registered (.var x)
  | fn {ps : List Ty} {r : Ty} (params : ∀ p ∈ ps, Registered p) (result : Registered r) :
      Registered (.fn ps r)
  | array {t : Ty} (element : Registered t) : Registered (.array t)

/-! ## Names -/

/-- A character of the names that stand in a rendered type. -/
def isNameChar (c : Char) : Bool := c.isAlphanum || c == '\''

/-- One or more such characters. -/
structure IsName (cs : List Char) : Prop where
  ne_nil : cs ≠ []
  chars : ∀ c ∈ cs, isNameChar c = true

/-- A name that starts with a quote, as those of variables do. -/
structure IsVarName (name : String) : Prop where
  quote : name.toList.head? = some '\''
  chars : ∀ c ∈ name.toList, isNameChar c = true

/-- What may follow a type: nothing that goes on with a name or an application. -/
def Stops (k : List Char) : Prop := ∀ c ∈ k.head?, isNameChar c = false ∧ c ≠ '<'

/-- What stops a rendered type does not go on with a name. -/
theorem Stops.not_nameChar {k : List Char} (h : Stops k) :
    ∀ c ∈ k.head?, isNameChar c = false := fun c hc => (h c hc).1

/-- What stops a rendered type does not apply it to an argument either. -/
theorem Stops.ne_application {k : List Char} (h : Stops k) (cs : List Char) : k ≠ '<' :: cs := by
  rintro rfl
  exact (h '<' rfl).2 rfl

/-- The name of a variable is a name, so it is cut off a text where any name is. -/
theorem IsVarName.isName {name : String} (h : IsVarName name) : IsName name.toList := by
  refine ⟨fun hnil => ?_, h.chars⟩
  have := h.quote
  rw [hnil] at this
  cases this

/-- The names of the registered types, of which none is one of a variable. -/
theorem exists_name_of_known {t : Ty} (h : t ∈ [number, string, arrayConstructor]) :
    ∃ name, t = .base { name } ∧ IsName name.toList ∧ ¬IsVarName name := by
  have isName {name : String} (hne : name.toList ≠ [])
      (hall : name.toList.all isNameChar = true) : IsName name.toList :=
    ⟨hne, List.all_eq_true.mp hall⟩
  simp only [List.mem_cons, List.not_mem_nil, or_false] at h
  rcases h with rfl | rfl | rfl
  · exact ⟨_, rfl, isName (by decide) (by decide), fun h => absurd h.quote (by decide)⟩
  · exact ⟨_, rfl, isName (by decide) (by decide), fun h => absurd h.quote (by decide)⟩
  · exact ⟨_, rfl, isName (by decide) (by decide), fun h => absurd h.quote (by decide)⟩

theorem isName_array : IsName "Array".toList := ⟨by decide, List.all_eq_true.mp (by decide)⟩

/-- The name of a variable is a quote and its letter. From the twenty-seventh variable on there are
no letters left, and the name has a number. -/
theorem toList_prettyName (i : Nat) : (∃ c, letters[i]? = some c ∧
    (prettyName i).toList = ['\'', c]) ∨ (letters[i]? = none ∧
      (prettyName i).toList = '\'' :: 't' :: Decimal.digits i) := by
  unfold prettyName
  split
  next c hc => exact .inl ⟨c, hc, String.toList_ofList⟩
  next hnone =>
    refine .inr ⟨hnone, ?_⟩
    show ("'t" ++ toString i).toList = _
    rw [Nat.toString_eq_ofList_toDigits]
    simp [Decimal.digits]

/-- Every name that is made for a variable is one of a variable, and so none of a registered
type. -/
theorem isVarName_prettyName (i : Nat) : IsVarName (prettyName i) := by
  have hletters : ∀ c ∈ letters, isNameChar c = true := List.all_eq_true.mp (by decide)
  rcases toList_prettyName i with ⟨c, hc, htext⟩ | ⟨-, htext⟩
  · refine ⟨by rw [htext]; rfl, ?_⟩
    rw [htext]
    simpa [isNameChar] using hletters c (List.mem_of_getElem? hc)
  · refine ⟨by rw [htext]; rfl, ?_⟩
    rw [htext, List.forall_mem_cons, List.forall_mem_cons]
    refine ⟨by decide, by decide, fun c hc => ?_⟩
    have hdigit : c.isDigit = true := Decimal.isDigit_of_mem_digits hc
    simp [isNameChar, Char.isAlphanum, hdigit]

/-- Different places have different names. A letter is never a number with its sign, so the two
kinds of names do not meet. -/
theorem prettyName_injective : Function.Injective prettyName := by
  intro i j h
  have htext := congrArg String.toList h
  have hnodup : letters.Nodup := by decide
  -- A letter alone and a `t` with digits after it are never the same.
  have mixed : ∀ (c : Char) (k : Nat), ['\'', c] ≠ '\'' :: 't' :: Decimal.digits k := by
    intro c k heq
    exact Decimal.digits_ne_nil k (List.cons.inj (List.cons.inj heq).2).2.symm
  rcases toList_prettyName i with ⟨c, hc, hi⟩ | ⟨-, hi⟩ <;>
    rcases toList_prettyName j with ⟨d, hd, hj⟩ | ⟨-, hj⟩ <;> rw [hi, hj] at htext
  · have hcd : c = d := by simpa using htext
    subst hcd
    obtain ⟨hi', hci⟩ := List.getElem?_eq_some_iff.mp hc
    obtain ⟨hj', hcj⟩ := List.getElem?_eq_some_iff.mp hd
    exact (List.Nodup.getElem_inj_iff hnodup).mp (hci.trans hcj.symm)
  · exact (mixed c j htext).elim
  · exact (mixed d i htext.symm).elim
  · have hdigits : Decimal.digits i = Decimal.digits j := by simpa using htext
    rw [← Decimal.digitsValue_digits i, hdigits, Decimal.digitsValue_digits]

/-! ## Reading from left to right -/

section Reading

variable {m n : TyVar → String} {ρ : TyVar → TyVar}

/-- An array is shown as the constructor with the shown element in angle brackets. -/
theorem toList_render_array (t : Ty) : (render m (.array t)).toList =
    "Array".toList ++ '<' :: ((render m t).toList ++ ['>']) := by
  show ("Array" ++ "<" ++ render m t ++ ">").toList = _
  simp

/-- Rendered types with commas between them. -/
def listed (m : TyVar → String) (ts : List Ty) : List Char :=
  [',', ' '].intercalate (ts.map fun t => (render m t).toList)

/-- A function is shown as its parameters in parentheses, an arrow and its result. The result is
shown without parentheses also if it is a function. -/
theorem toList_render_fn (ps : List Ty) (r : Ty) : (render m (.fn ps r)).toList =
    '(' :: (listed m ps ++ ')' :: (" -> ".toList ++ (render m r).toList)) := by
  simp [render, listed, String.toList_intercalate, Function.comp_def]

/-- A text that starts with a name starts with a rendered type only if this is an atom or a variable
with that name, or an array. Which one it is follows from the name and from what comes after it. -/
theorem Registered.of_name (hn : ∀ y, IsVarName (n y)) {u : Ty} (hu : Registered u)
    {w k k' : List Char} (hw : IsName w) (hk : ∀ c ∈ k.head?, isNameChar c = false)
    (hk' : Stops k') (h : w ++ k = (render n u).toList ++ k') :
    (∃ name, u = .base { name } ∧ ¬IsVarName name ∧ w = name.toList ∧ k = k') ∨
    (∃ y, u = .var y ∧ w = (n y).toList ∧ k = k') ∨
    ∃ v, u = .array v ∧ Registered v ∧ w = "Array".toList ∧
      k = '<' :: ((render n v).toList ++ '>' :: k') := by
  cases hu with
  | atom known =>
    obtain ⟨name, rfl, isName, notVar⟩ := exists_name_of_known known
    obtain ⟨hw, hk⟩ := run_unique hw.chars isName.chars hk hk'.not_nameChar h
    exact .inl ⟨name, rfl, notVar, hw, hk⟩
  | var y =>
    obtain ⟨hw, hk⟩ := run_unique hw.chars (hn y).chars hk hk'.not_nameChar h
    exact .inr (.inl ⟨y, rfl, hw, hk⟩)
  | fn params result =>
    -- A function starts with a parenthesis, which is in no name.
    obtain ⟨c, cs, rfl⟩ := List.exists_cons_of_ne_nil hw.ne_nil
    rw [toList_render_fn] at h
    have hc := hw.chars c List.mem_cons_self
    rw [(List.cons.inj h).1] at hc
    cases hc
  | @array v element =>
    rw [toList_render_array, List.append_assoc, List.cons_append, List.append_assoc] at h
    obtain ⟨hw, hk⟩ := run_unique hw.chars isName_array.chars hk (by rintro c ⟨⟩; rfl) h
    exact .inr (.inr ⟨v, rfl, element, hw, hk⟩)

/-- A rendered type starts with a character of a name, or it is a function and starts with a
parenthesis. -/
theorem Registered.exists_head (hn : ∀ y, IsVarName (n y)) {u : Ty} (hu : Registered u) :
    ∃ c cs, (render n u).toList = c :: cs ∧ (isNameChar c = true ∨ c = '(' ∧ ∃ ps r,
      u = .fn ps r ∧ (∀ p ∈ ps, Registered p) ∧ Registered r) := by
  have ofName {w : List Char} (hw : IsName w) (k : List Char) :
      ∃ c cs, w ++ k = c :: cs ∧ isNameChar c = true := by
    obtain ⟨c, cs, rfl⟩ := List.exists_cons_of_ne_nil hw.ne_nil
    exact ⟨c, cs ++ k, rfl, hw.chars c List.mem_cons_self⟩
  cases hu with
  | atom known =>
    obtain ⟨name, rfl, isName, -⟩ := exists_name_of_known known
    obtain ⟨c, cs, hname, hc⟩ := ofName isName []
    rw [List.append_nil] at hname
    exact ⟨c, cs, hname, .inl hc⟩
  | var y =>
    obtain ⟨c, cs, hname, hc⟩ := ofName (hn y).isName []
    rw [List.append_nil] at hname
    exact ⟨c, cs, hname, .inl hc⟩
  | @fn ps r params result =>
    exact ⟨_, _, toList_render_fn ps r, .inr ⟨rfl, ps, r, rfl, params, result⟩⟩
  | @array v element =>
    obtain ⟨c, cs, hname, hc⟩ := ofName isName_array ('<' :: ((render n v).toList ++ ['>']))
    exact ⟨c, cs, (toList_render_array v).trans hname, .inl hc⟩

/-- No rendered type starts with a closing parenthesis, so an empty list of parameters is seen at
once. -/
theorem Registered.ne_closing (hn : ∀ y, IsVarName (n y)) {u : Ty} (hu : Registered u)
    (k k' : List Char) : (render n u).toList ++ k ≠ ')' :: k' := by
  obtain ⟨c, cs, htext, hc⟩ := hu.exists_head hn
  rw [htext]
  intro h
  obtain rfl := (List.cons.inj h).1
  rcases hc with hc | ⟨hc, -⟩
  · cases hc
  · exact absurd hc (by decide)

/-- A rendered type that starts with a parenthesis is a function. Parentheses are not used for
anything else. -/
theorem Registered.fn_of_paren (hn : ∀ y, IsVarName (n y)) {u : Ty} (hu : Registered u)
    {k k' : List Char} (h : '(' :: k = (render n u).toList ++ k') :
    ∃ ps r, u = .fn ps r ∧ (∀ p ∈ ps, Registered p) ∧ Registered r := by
  obtain ⟨c, cs, htext, hc⟩ := hu.exists_head hn
  rw [htext] at h
  obtain rfl := (List.cons.inj h).1
  rcases hc with hc | ⟨-, function⟩
  · cases hc
  · exact function

/-- A type that is shown as `t`, before a text that does not go on with it, is `t` renamed, if
the renaming sends variables to those that are shown alike. -/
def Reads (m n : TyVar → String) (ρ : TyVar → TyVar) (t : Ty) : Prop :=
  ∀ {u : Ty} {k k' : List Char}, Registered u → (∀ x, ∀ y ∈ u.vars, m x = n y → ρ x = y) →
    Stops k → Stops k' → (render m t).toList ++ k = (render n u).toList ++ k' →
      u = rename ρ t ∧ k = k'

theorem stops_nil : Stops [] := by rintro c ⟨⟩

/-- A type may stand before a character that neither goes on with a name nor applies it. -/
theorem stops_cons {c : Char} (h : isNameChar c = false ∧ c ≠ '<') (cs : List Char) :
    Stops (c :: cs) := by
  rintro d ⟨⟩
  exact h

/-- The first of several parameters is followed by the closing parenthesis or by a comma, a blank
and the other parameters. A type stops before each of them. -/
theorem exists_listed_cons (m : TyVar → String) (p : Ty) (ps : List Ty) (k : List Char) :
    ∃ rest, Stops rest ∧ listed m (p :: ps) ++ ')' :: k = (render m p).toList ++ rest ∧
      (ps = [] ∧ rest = ')' :: k ∨
        ps ≠ [] ∧ rest = ',' :: ' ' :: (listed m ps ++ ')' :: k)) := by
  cases ps with
  | nil => exact ⟨_, stops_cons (by decide) k, by simp [listed], .inl ⟨rfl, rfl⟩⟩
  | cons q qs =>
    refine ⟨_, stops_cons (by decide) _, ?_, .inr ⟨by simp, rfl⟩⟩
    simp [listed, List.intercalate_cons_cons]

/-- Parameters with commas between them, up to a closing parenthesis, can be read in one way only if
each of them can. Both lists turn out to be of one length. -/
theorem reads_params (hm : ∀ x, IsVarName (m x)) (hn : ∀ y, IsVarName (n y)) {ps qs : List Ty}
    {k k' : List Char} (hps : ∀ p ∈ ps, Registered p) (each : ∀ p ∈ ps, Reads m n ρ p)
    (hqs : ∀ q ∈ qs, Registered q) (hρ : ∀ q ∈ qs, ∀ x, ∀ y ∈ q.vars, m x = n y → ρ x = y)
    (h : listed m ps ++ ')' :: k = listed n qs ++ ')' :: k') :
    qs = ps.map (rename ρ) ∧ k = k' := by
  induction ps generalizing qs with
  | nil =>
    cases qs with
    | nil => exact ⟨rfl, (List.cons.inj h).2⟩
    | cons q qs =>
      obtain ⟨rest, -, hlisted, -⟩ := exists_listed_cons n q qs k'
      rw [hlisted] at h
      exact ((hqs q List.mem_cons_self).ne_closing hn _ _ h.symm).elim
  | cons p ps ih =>
    obtain ⟨rest, hstops, hlisted, hrest⟩ := exists_listed_cons m p ps k
    rw [hlisted] at h
    cases qs with
    | nil => exact ((hps p List.mem_cons_self).ne_closing hm _ _ h).elim
    | cons q qs =>
      obtain ⟨rest', hstops', hlisted', hrest'⟩ := exists_listed_cons n q qs k'
      rw [hlisted'] at h
      rw [List.forall_mem_cons] at hps each hqs hρ
      obtain ⟨rfl, rfl⟩ := each.1 hqs.1 hρ.1 hstops hstops' h
      rcases hrest with ⟨rfl, hk⟩ | ⟨hne, hk⟩ <;> rcases hrest' with ⟨rfl, hk'⟩ | ⟨hne', hk'⟩
      · exact ⟨rfl, (List.cons.inj (hk.symm.trans hk')).2⟩
      · exact absurd (List.cons.inj (hk.symm.trans hk')).1 (by decide)
      · exact absurd (List.cons.inj (hk.symm.trans hk')).1 (by decide)
      · have hmore := (List.cons.inj (List.cons.inj (hk.symm.trans hk')).2).2
        obtain ⟨rfl, rfl⟩ := ih hps.2 each.2 hqs.2 hρ.2 hmore
        exact ⟨rfl, rfl⟩

/-- A rendered type can be read in one way only: if it starts a text that another rendered type
starts, then the other is this one with renamed variables, and the rests are the same. -/
theorem Registered.reads (hm : ∀ x, IsVarName (m x)) (hn : ∀ y, IsVarName (n y)) {t : Ty}
    (ht : Registered t) : Reads m n ρ t := by
  induction ht with
  | atom known =>
    intro u k k' hu hρ hk hk' h
    obtain ⟨name, rfl, isName, notVar⟩ := exists_name_of_known known
    rcases hu.of_name hn isName hk.not_nameChar hk' h with
      ⟨name', rfl, -, hname, hk⟩ | ⟨y, rfl, hname, -⟩ | ⟨v, -, -, -, hlt⟩
    · rw [String.toList_inj.mp hname]
      exact ⟨rfl, hk⟩
    · exact (notVar (String.toList_inj.mp hname ▸ hn y)).elim
    · exact (hk.ne_application _ hlt).elim
  | var x =>
    intro u k k' hu hρ hk hk' h
    rcases hu.of_name hn (hm x).isName hk.not_nameChar hk' h with
      ⟨name, rfl, notVar, hname, -⟩ | ⟨y, rfl, hname, hk⟩ | ⟨v, -, -, -, hlt⟩
    · exact (notVar (String.toList_inj.mp hname ▸ hm x)).elim
    · rw [rename_var, hρ x y List.mem_cons_self (String.toList_inj.mp hname)]
      exact ⟨rfl, hk⟩
    · exact (hk.ne_application _ hlt).elim
  | @array t element ih =>
    intro u k k' hu hρ hk hk' h
    rw [toList_render_array, List.append_assoc, List.cons_append, List.append_assoc] at h
    rcases hu.of_name hn isName_array (by rintro c ⟨⟩; rfl) hk' h with
      ⟨name, -, -, -, hlt⟩ | ⟨y, -, -, hlt⟩ | ⟨v, rfl, hv, -, hrest⟩
    · exact (hk'.ne_application _ hlt.symm).elim
    · exact (hk'.ne_application _ hlt.symm).elim
    · have closing := stops_cons (c := '>') (by decide)
      have hvars : ∀ x, ∀ y ∈ v.vars, m x = n y → ρ x = y := fun x y hy =>
        hρ x y (List.mem_append_right _ hy)
      obtain ⟨rfl, hk⟩ := ih hv hvars (closing k) (closing k') (List.cons.inj hrest).2
      exact ⟨rfl, (List.cons.inj hk).2⟩
  | @fn ps r params result ihps ihr =>
    intro u k k' hu hρ hk hk' h
    rw [toList_render_fn] at h
    obtain ⟨qs, q, rfl, hqs, hq⟩ := hu.fn_of_paren hn h
    rw [toList_render_fn] at h
    simp only [vars, varsAll_eq_flatMap, List.mem_append, List.mem_flatMap] at hρ
    simp only [List.append_assoc, List.cons_append] at h
    obtain ⟨rfl, hresult⟩ := reads_params hm hn params ihps hqs
      (fun q hq x y hy => hρ x y (.inl ⟨q, hq, hy⟩)) (List.cons.inj h).2
    obtain ⟨rfl, hk⟩ := ihr hq (fun x y hy => hρ x y (.inr hy)) hk hk'
      (List.append_cancel_left hresult)
    exact ⟨(rename_fn ps r).symm, hk⟩

end Reading

/-! ## Pretty forms -/

/-- The name of a variable in the pretty forms of types. -/
def sharedName (ts : List Ty) (x : TyVar) : String := prettyName ((sharedVars ts).idxOf x)

/-- The variable of some types that stands where a variable stands among those of others. -/
def partner (ts us : List Ty) (x : TyVar) : TyVar :=
  ((sharedVars us)[(sharedVars ts).idxOf x]?).getD x

/-- Variables that are shown alike are partners, as no two places share a name. -/
theorem partner_eq {ts us : List Ty} {x y : TyVar} (hy : y ∈ sharedVars us)
    (h : sharedName ts x = sharedName us y) : partner ts us x = y := by
  have hidx : (sharedVars ts).idxOf x = (sharedVars us).idxOf y := prettyName_injective h
  have hlt : (sharedVars us).idxOf y < (sharedVars us).length := List.idxOf_lt_length_iff.mpr hy
  rw [partner, hidx, List.getElem?_eq_getElem hlt, List.getElem_idxOf, Option.getD_some]

/-- Types that are shown alike are the same but for their variables, which are renamed to their
partners. -/
theorem eq_map_partner {ts us : List Ty} (hts : ∀ t ∈ ts, Registered t)
    (hus : ∀ u ∈ us, Registered u) (h : prettyAll ts = prettyAll us) :
    us = ts.map (rename (partner ts us)) := by
  have hnames : ∀ vs : List Ty, ∀ x, IsVarName (sharedName vs x) := fun vs x =>
    isVarName_prettyName _
  have hshown : ts.map (render (sharedName ts)) = us.map (render (sharedName us)) := h
  have hlength : us.length = ts.length := by simpa using (congrArg List.length hshown).symm
  refine List.ext_getElem (by simpa using hlength) fun i hi hi' => ?_
  have hit : i < ts.length := hlength ▸ hi
  have hreads : Reads (sharedName ts) (sharedName us) (partner ts us) ts[i] :=
    (hts _ (List.getElem_mem hit)).reads (hnames ts) (hnames us)
  have hvars : ∀ x, ∀ y ∈ us[i].vars, sharedName ts x = sharedName us y → partner ts us x = y :=
    fun x y hy => partner_eq (mem_sharedVars.mpr ⟨us[i], List.getElem_mem hi, hy⟩)
  have hget : render (sharedName ts) ts[i] = render (sharedName us) us[i] := by
    have := congrArg (·[i]?) hshown
    simpa [List.getElem?_eq_getElem, hi, hit] using this
  rw [List.getElem_map]
  exact (hreads (hus _ (List.getElem_mem hi)) hvars stops_nil stops_nil
    (congrArg (fun s : String => s.toList ++ []) hget)).1

/-- A renaming that another one takes back keeps the variables of the types apart. -/
theorem injOn_of_rename_rename {ρ σ : TyVar → TyVar} {ts : List Ty}
    (h : (ts.map (rename ρ)).map (rename σ) = ts) : Set.InjOn ρ {x | x ∈ sharedVars ts} := by
  have hvars := congrArg (List.flatMap vars) h
  rw [flatMap_vars_rename, flatMap_vars_rename, List.map_map] at hvars
  have hback : ∀ x ∈ sharedVars ts, σ (ρ x) = x := fun x hx =>
    List.map_inj_left.mp (hvars.trans (List.map_id _).symm) x (List.mem_eraseDups.mp hx)
  intro x hx y hy hxy
  rw [← hback x hx, hxy, hback y hy]

/-- A renaming that keeps the variables of types apart pairs them off with the new ones. -/
theorem bijOn_rename {ρ : TyVar → TyVar} {ts : List Ty}
    (inj : Set.InjOn ρ {x | x ∈ sharedVars ts}) :
    Set.BijOn ρ {x | x ∈ sharedVars ts} {y | y ∈ sharedVars (ts.map (rename ρ))} := by
  have hmem : ∀ y, y ∈ sharedVars (ts.map (rename ρ)) ↔ ∃ x ∈ sharedVars ts, ρ x = y := by
    intro y
    simp only [sharedVars, flatMap_vars_rename, List.mem_eraseDups, List.mem_map]
  exact ⟨fun x hx => (hmem _).mpr ⟨x, hx, rfl⟩, inj, fun y hy => (hmem y).mp hy⟩

/-- **Pretty forms show types up to the names of their variables.** Two lists of registered
types have the same pretty forms exactly if one bijection between their variables leads from
each type of the first list to the one at its place in the second. -/
theorem prettyAll_eq_iff {ts us : List Ty} (hts : ∀ t ∈ ts, Registered t)
    (hus : ∀ u ∈ us, Registered u) : prettyAll ts = prettyAll us ↔ ∃ ρ : TyVar → TyVar,
      Set.BijOn ρ {x | ∃ t ∈ ts, x ∈ t.vars} {y | ∃ u ∈ us, y ∈ u.vars} ∧
        us = ts.map (rename ρ) := by
  simp only [← mem_sharedVars]
  constructor
  · intro h
    obtain ⟨ρ, rfl⟩ : ∃ ρ, us = ts.map (rename ρ) := ⟨_, eq_map_partner hts hus h⟩
    have inj : Set.InjOn ρ {x | x ∈ sharedVars ts} :=
      injOn_of_rename_rename (eq_map_partner hus hts h.symm).symm
    exact ⟨ρ, bijOn_rename inj, rfl⟩
  · rintro ⟨ρ, bij, rfl⟩
    exact (prettyAll_rename bij.injOn).symm

/-- A function of thirty variables, of which the last four have no letter, and a type with one
of these. Moving all variables up does not show, but another variable in the second type does. -/
theorem prettyAll_eq_iff_thirty :
    let wide (k : Nat) : Ty :=
      .fn ((List.range 30).map fun i => .var ⟨i + k, 0⟩) (.array (.var ⟨29 + k, 0⟩))
    (∀ t ∈ [wide 0, .array (.var ⟨28, 0⟩)], Registered t) ∧
      prettyAll [wide 0, .array (.var ⟨28, 0⟩)] = prettyAll [wide 7, .array (.var ⟨35, 0⟩)] ∧
      prettyAll [wide 0, .array (.var ⟨28, 0⟩)] ≠ prettyAll [wide 7, .array (.var ⟨36, 0⟩)] := by
  intro wide
  have registered : ∀ k x, ∀ t ∈ [wide k, .array (.var x)], Registered t := by
    intro k x t ht
    simp only [List.mem_cons, List.not_mem_nil, or_false] at ht
    rcases ht with rfl | rfl
    · refine .fn (fun p hp => ?_) (.array (.var _))
      obtain ⟨i, -, rfl⟩ := List.mem_map.mp hp
      exact .var _
    · exact .array (.var x)
  refine ⟨registered 0 _, ?_, ?_⟩
  · refine (prettyAll_eq_iff (registered 0 _) (registered 7 _)).mpr
      ⟨fun x => ⟨x.id + 7, x.mark⟩, ?_, rfl⟩
    simp only [← mem_sharedVars]
    refine bijOn_rename ?_
    rintro ⟨i, mark⟩ _ ⟨j, mark'⟩ _ h
    obtain ⟨hid, hmark⟩ := TyVar.mk.inj h
    exact congrArg₂ TyVar.mk (Nat.add_right_cancel hid) hmark
  · intro h
    obtain ⟨ρ, bij, hρ⟩ := (prettyAll_eq_iff (registered 0 _) (registered 7 _)).mp h
    obtain ⟨hwide, hsecond⟩ := List.cons.inj hρ
    have last : ρ ⟨29, 0⟩ = ⟨36, 0⟩ := by
      have hresult := (Ty.fn.inj (hwide.trans (rename_fn _ _))).2
      exact (Ty.var.inj (Ty.app.inj hresult).2).symm
    have other : ρ ⟨28, 0⟩ = ⟨36, 0⟩ :=
      (Ty.var.inj (Ty.app.inj (List.cons.inj hsecond).1).2).symm
    have same : TyVar.mk 29 0 = ⟨28, 0⟩ := bij.injOn
      ⟨wide 0, by simp, List.mem_append_right _ (List.mem_append_right _ List.mem_cons_self)⟩
      ⟨.array (.var ⟨28, 0⟩), by simp, List.mem_append_right _ List.mem_cons_self⟩
      (last.trans other.symm)
    exact absurd same (by decide)

end Ty

end TypedSexp
