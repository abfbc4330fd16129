-- Writing a value piece by piece. What a writer has put into an output stays there when it
-- fails, so a date is first written apart: of a pattern that fails on the way nothing is
-- left, and the lists around the date are written to their ends. The text of a value is what
-- is put into the output, whatever the failing patterns had written.
import TemplateExpr.Coercions
import TemplateExpr.Proofs.Heap.Order

namespace TemplateExpr

/-! ## Writers -/

/-- Puts text at the end of an output, and may fail. What was put there before stays. -/
abbrev Writer := ExceptT Unit (StateM String)

namespace Writer

def put (s : String) : Writer Unit := modify (· ++ s)

/-- How a writer ends on an output, and the output then. -/
def onto (x : Writer Unit) (out : String) : Except Unit Unit × String := (ExceptT.run x).run out

/-- The writer never fails, and all it does is to put this text at the end of the output. -/
def Puts (x : Writer Unit) (s : String) : Prop := ∀ out, x.onto out = (.ok (), out ++ s)

variable {x y : Writer Unit} {s t : String}

theorem Puts.onto_empty (hx : x.Puts s) : (x.onto "").2 = s := by
  rw [hx, String.empty_append]

/-- What a writer puts at the end of an empty output it puts at the end of any. -/
theorem Puts.self (hx : x.Puts s) : x.Puts (x.onto "").2 := by
  rwa [hx.onto_empty]

theorem puts_put (s : String) : (put s).Puts s := fun _ => rfl

theorem puts_pure : (pure () : Writer Unit).Puts "" := by
  intro out
  rw [String.append_empty]
  rfl

theorem Puts.bind (hx : x.Puts s) (hy : y.Puts t) : (x >>= fun _ => y).Puts (s ++ t) := by
  intro out
  have hrun : (x >>= fun _ => y).onto out =
      match x.onto out with
      | (.ok _, out) => y.onto out
      | (.error e, out) => (.error e, out) := by
    simp only [onto, ExceptT.run_bind, StateT.run_bind]
    rcases (ExceptT.run x).run out with ⟨_ | _, _⟩ <;> rfl
  rw [hrun, hx]
  dsimp only
  rw [hy, String.append_assoc]

end Writer

/-! ## Dates -/

namespace Calendar

/-- What has been written of a moment, and whether it is all. -/
structure Attempt where
  written : String
  complete : Bool

/-- A way to write moments after patterns. It may have written something before it fails. -/
abbrev Formatter := Moment → String → Attempt

def Attempt.write (a : Attempt) : Writer Unit := do
  Writer.put a.written
  unless a.complete do throw ()

namespace Formatter

variable (f : Formatter)

def WritesUsual : Prop := ∀ m, (f m usualPattern).complete = true

/-- The texts that come out complete are those of the patterns that can be followed. -/
def Follows : Prop := ∀ m pattern,
  m.format? pattern = if (f m pattern).complete then some (f m pattern).written else none

/-- A date is written after the usual pattern if the other one fails. Each goes into an output of
its own, of which only a complete text gets any further. -/
def writeDate (pattern : String) (m : Moment) : Writer Unit :=
  match (f m pattern).write.onto "" with
  | (.ok _, text) => Writer.put text
  | (.error _, _) =>
    match (f m usualPattern).write.onto "" with
    | (.ok _, text) => Writer.put text
    | (.error e, _) => throw e

/-- The text of a date by a pattern, or by the usual one where that fails. -/
def dateText (pattern : String) (m : Moment) : String :=
  if (f m pattern).complete then (f m pattern).written else (f m usualPattern).written

end Formatter

theorem Attempt.onto_write (a : Attempt) (out : String) :
    a.write.onto out = (if a.complete then .ok () else .error (), out ++ a.written) := by
  obtain ⟨written, complete⟩ := a
  cases complete <;> rfl

theorem Formatter.puts_writeDate {f : Formatter} (hf : f.WritesUsual) (pattern : String)
    (m : Moment) : (f.writeDate pattern m).Puts (f.dateText pattern m) := by
  have hwrite : f.writeDate pattern m = Writer.put (f.dateText pattern m) := by
    unfold writeDate dateText
    rw [Attempt.onto_write, Attempt.onto_write, hf m, String.empty_append, String.empty_append]
    cases (f m pattern).complete <;> rfl
  rw [hwrite]
  exact Writer.puts_put _

/-- Every moment can be written after the usual pattern. -/
theorem Formatter.Follows.writesUsual {f : Formatter} (hf : f.Follows) : f.WritesUsual := by
  intro m
  have hformat := hf m usualPattern
  by_contra hincomplete
  rw [if_neg hincomplete] at hformat
  cases hformat

theorem Formatter.Follows.dateText {f : Formatter} (hf : f.Follows) (pattern : String)
    (m : Moment) : f.dateText pattern m = m.text pattern := by
  rw [Moment.text, hf m pattern, hf m usualPattern, Formatter.dateText, if_pos (hf.writesUsual m)]
  split <;> rfl

end Calendar

/-! ## Values -/

/-- Writes items one after the other, with a separator before all but the first. -/
def Writer.putItems (write : Value → Writer Unit) : Nat → List Value → Writer Unit
  | _, [] => pure ()
  | index, v :: vs => do
    if 0 < index then Writer.put ", "
    write v
    putItems write (index + 1) vs

theorem Writer.puts_putItems_succ {write : Value → Writer Unit} {text : Value → String}
    {vs : List Value} (hwrite : ∀ v ∈ vs, (write v).Puts (text v)) (index : Nat) :
    (putItems write (index + 1) vs).Puts (String.join (vs.map fun v => ", " ++ text v)) := by
  induction vs generalizing index with
  | nil => exact puts_pure
  | cons v vs ih =>
    have hrest := ih (fun u hu => hwrite u (List.mem_cons_of_mem v hu)) (index + 1)
    have hall := (puts_put ", ").bind ((hwrite v List.mem_cons_self).bind hrest)
    rw [putItems]
    simpa [String.append_assoc] using hall

/-- What is between the brackets of a list. -/
theorem Writer.puts_putItems {write : Value → Writer Unit} {text : Value → String}
    {vs : List Value} (hwrite : ∀ v ∈ vs, (write v).Puts (text v)) :
    (putItems write 0 vs).Puts (", ".intercalate (vs.map text)) := by
  have hjoin : ∀ (s : String) (ss : List String),
      ", ".intercalate (s :: ss) = s ++ String.join (ss.map (", " ++ ·)) := by
    intro s ss
    induction ss generalizing s with
    | nil => simp
    | cons t ts ih => simp [ih, String.append_assoc]
  cases vs with
  | nil => exact puts_pure
  | cons v vs =>
    have hrest := puts_putItems_succ (fun u hu => hwrite u (List.mem_cons_of_mem v hu)) 0
    have hall := (hwrite v List.mem_cons_self).bind hrest
    rw [List.map_cons, hjoin, List.map_map, putItems]
    simpa [Function.comp_def] using hall

namespace Heap

open Calendar

section

variable (h : Heap) (f : Formatter) (pattern : String)

/-- Writes a value whose lists are nested at most this deep. -/
def writeWithin : Nat → Value → Writer Unit
  | d + 1, .list r => do
    Writer.put "["
    Writer.putItems (writeWithin d) 0 (h.items r)
    Writer.put "]"
  | _, .date m => f.writeDate pattern m
  | _, v => Writer.put (h.leafText pattern v)

/-- What is in an empty output after a value has been written to it, whether or not that failed. -/
def renderedWithin (d : Nat) (v : Value) : String := ((h.writeWithin f pattern d v).onto "").2

def rendered (v : Value) : String := h.renderedWithin f pattern h.depth v

end

variable {h : Heap} {f : Formatter} {pattern : String}

theorem writeWithin_of_ne_list {v : Value} (d : Nat) (hv : v.kind ≠ .list) :
    h.writeWithin f pattern d v = h.writeWithin f pattern 0 v := by
  cases v with
  | list => exact absurd rfl hv
  | _ => cases d <;> rfl

theorem puts_leaf (hf : f.WritesUsual) {v : Value} (d : Nat) (hv : v.kind ≠ .list) :
    (h.writeWithin f pattern d v).Puts (h.renderedWithin f pattern d v) := by
  rw [renderedWithin, writeWithin_of_ne_list d hv]
  cases v with
  | date m => exact (Formatter.puts_writeDate hf pattern m).self
  | list => exact absurd rfl hv
  | _ => exact (Writer.puts_put _).self

theorem puts_list {d : Nat} {r : ListRef}
    (hitems : ∀ v ∈ h.items r,
      (h.writeWithin f pattern d v).Puts (h.renderedWithin f pattern d v)) :
    (h.writeWithin f pattern (d + 1) (.list r)).Puts
      (Text.bracketed ((h.items r).map (h.renderedWithin f pattern d))) := by
  have hall := (Writer.puts_put "[").bind ((Writer.puts_putItems hitems).bind (Writer.puts_put "]"))
  rw [← String.append_assoc] at hall
  rw [writeWithin]
  exact hall

/-- Writing never fails, and adds the same text to every output. -/
theorem puts_writeWithin (hf : f.WritesUsual) (d : Nat) (v : Value) :
    (h.writeWithin f pattern d v).Puts (h.renderedWithin f pattern d v) := by
  induction d generalizing v with
  | zero =>
    cases v with
    | list => exact (Writer.puts_put _).self
    | _ => exact puts_leaf hf 0 nofun
  | succ d ih =>
    rcases v.list_or_leaf with ⟨r, rfl⟩ | hv
    · exact (puts_list fun u _ => ih u).self
    · exact puts_leaf hf _ hv

theorem renderedWithin_list (hf : f.WritesUsual) (d : Nat) (r : ListRef) :
    h.renderedWithin f pattern (d + 1) (.list r) =
      Text.bracketed ((h.items r).map (h.renderedWithin f pattern d)) :=
  (puts_list fun v _ => puts_writeWithin hf d v).onto_empty

theorem renderedWithin_of_ne_list {v : Value} (d : Nat) (hv : v.kind ≠ .list) :
    h.renderedWithin f pattern d v = h.renderedWithin f pattern 0 v := by
  rw [renderedWithin, renderedWithin, writeWithin_of_ne_list d hv]

/-- A limit of depth that is not reached does not matter. -/
theorem NestedWithin.renderedWithin_eq (hf : f.WritesUsual) {d e : Nat} {v : Value}
    (hv : h.NestedWithin d v) (hle : d ≤ e) :
    h.renderedWithin f pattern e v = h.renderedWithin f pattern d v :=
  eq_of_nestedWithin id (fun _ => Text.bracketed) (fun vs => List.Subset.refl vs)
    (fun d _ => renderedWithin_of_ne_list d) (renderedWithin_list hf) hv hle

theorem rendered_list (hf : f.WritesUsual) {r : ListRef} (hr : (Value.list r).In h)
    (hv : h.NestedWithin h.depth (.list r)) : h.rendered f pattern (.list r) =
      Text.bracketed ((h.items r).map (h.rendered f pattern)) :=
  eq_node_of_nestedWithin id (fun _ => Text.bracketed) (fun vs => List.Subset.refl vs)
    (fun d _ => renderedWithin_of_ne_list d) (renderedWithin_list hf) hr hv

theorem rendered_date (hf : f.WritesUsual) (m : Moment) :
    h.rendered f pattern (.date m) = f.dateText pattern m := by
  have hlist : (Value.date m).kind ≠ .list := nofun
  rw [rendered, renderedWithin_of_ne_list h.depth hlist]
  exact (Formatter.puts_writeDate hf pattern m).onto_empty

/-- Where there is no date neither the pattern nor the way to write dates matters. -/
theorem renderedWithin_of_no_date {g : Formatter} (hf : f.WritesUsual) (hg : g.WritesUsual)
    (other : String) (d : Nat) {v : Value} (hv : ∀ u, h.Contains v u → u.kind ≠ .date) :
    h.renderedWithin g other d v = h.renderedWithin f pattern d v := by
  have hleaf : ∀ v : Value, v.kind ≠ .date →
      h.renderedWithin g other 0 v = h.renderedWithin f pattern 0 v := by
    intro v hv
    cases v with
    | date => exact absurd rfl hv
    | _ => rfl
  induction d generalizing v with
  | zero => exact hleaf v (hv v (h.contains_self v))
  | succ d ih =>
    rcases v.list_or_leaf with ⟨r, rfl⟩ | hkind
    · rw [renderedWithin_list hf, renderedWithin_list hg]
      congr 1
      exact List.map_congr_left fun u hu => ih fun x hx => hv x (.of_holds ⟨r, rfl, hu⟩ hx)
    · rw [renderedWithin_of_ne_list _ hkind, renderedWithin_of_ne_list (d + 1) hkind]
      exact hleaf v (hv v (h.contains_self v))

/-- The texts that are put together at once are those that are written piece by piece. -/
theorem renderedWithin_eq_textWithin (hf : f.Follows) (d : Nat) (v : Value) :
    h.renderedWithin f pattern d v = h.textWithin pattern d v := by
  have hleaf : ∀ v : Value, h.renderedWithin f pattern 0 v = h.leafText pattern v := by
    intro v
    cases v with
    | date m =>
      rw [leafText, ← hf.dateText]
      exact (Formatter.puts_writeDate hf.writesUsual pattern m).onto_empty
    | _ => exact (Writer.puts_put _).onto_empty
  induction d generalizing v with
  | zero => exact hleaf v
  | succ d ih =>
    rcases v.list_or_leaf with ⟨r, rfl⟩ | hkind
    · rw [renderedWithin_list hf.writesUsual, textWithin]
      congr 1
      exact List.map_congr_left fun u _ => ih u
    · rw [renderedWithin_of_ne_list _ hkind, hleaf, textWithin_of_ne_list _ _ _ hkind]

/-! ## The law -/

/-- What is written of a value. -/
structure RendersInFull (h : Heap) (f : Formatter) (pattern : String) (v : Value) : Prop where
  /-- Writing comes to its end and only adds to the output, and a higher limit of depth does not
  change what it adds. -/
  complete : ∀ d, h.depth ≤ d → (h.writeWithin f pattern d v).Puts (h.rendered f pattern v)
  /-- A date is its complete text by the pattern, or that by the usual pattern and nothing else. -/
  dates : ∀ m, h.Contains v (.date m) → h.rendered f pattern (.date m) =
    if (f m pattern).complete then (f m pattern).written else (f m usualPattern).written
  lists : ∀ r, h.Contains v (.list r) → h.rendered f pattern (.list r) =
    "[" ++ ", ".intercalate ((h.items r).map (h.rendered f pattern)) ++ "]"
  dateless : (∀ u, h.Contains v u → u.kind ≠ .date) → ∀ (g : Formatter) (other : String),
    g.WritesUsual → h.rendered g other v = h.rendered f pattern v
  /-- The texts that operators ask for are what is written, whatever was written in vain. -/
  text : f.Follows → h.text pattern v = h.rendered f pattern v ∧
    ∀ span, (Coercions.standard h pattern).text span v = h.rendered f pattern v

theorem Contains.of_grounded (hc : h.Closed) {v u : Value} (hu : h.Contains v u) (hv : v.In h)
    (hg : h.Grounded v) : u.In h ∧ h.Grounded u := by
  induction hu using Relation.ReflTransGen.head_induction_on with
  | refl => exact ⟨hv, hg⟩
  | head hholds _ ih => exact ⟨hc.of_holds hholds, ih.2.inv hholds⟩

/-- Every value in which no list holds itself is written in full, by every way to write dates that
does not fail for the usual pattern. -/
theorem values_are_rendered_in_full (f : Formatter) (hf : f.WritesUsual) (h : Heap)
    (hc : h.Closed) (pattern : String) (v : Value) (hv : v.In h) (hg : h.Grounded v) :
    h.RendersInFull f pattern v := by
  have hdepth : ∀ u, h.Contains v u → h.NestedWithin h.depth u := by
    intro u hu
    obtain ⟨hin, hground⟩ := hu.of_grounded hc hv hg
    exact hc.nestedWithin_depth hin hground
  have hown := hdepth v (h.contains_self v)
  refine ⟨?_, fun m _ => rendered_date hf m, ?_, ?_, ?_⟩
  · intro d hd
    have hputs : (h.writeWithin f pattern d v).Puts (h.renderedWithin f pattern d v) :=
      puts_writeWithin hf d v
    rwa [hown.renderedWithin_eq hf hd] at hputs
  · intro r hr
    exact rendered_list hf (hr.of_grounded hc hv hg).1 (hdepth _ hr)
  · intro hdateless g other hg
    exact renderedWithin_of_no_date hf hg other h.depth hdateless
  · intro hfollows
    have htext : h.rendered f pattern v = h.text pattern v :=
      renderedWithin_eq_textWithin hfollows h.depth v
    exact ⟨htext.symm, fun _ => htext.symm⟩

/-- A way to write dates that has put the whole pattern into the output before it fails. -/
def spilling : Formatter := fun m pattern =>
  match m.format? pattern with
  | some s => ⟨s, true⟩
  | none => ⟨pattern, false⟩

theorem follows_spilling : spilling.Follows := by
  intro m pattern
  unfold spilling
  cases m.format? pattern <;> rfl

/-- Two lists in one another, with the first day of the year 1 between texts. -/
def dated : Datum :=
  .list [.leaf (.string "a"), .list [.leaf (.date ⟨0, by decide⟩), .leaf .null],
    .leaf (.string "b")]

/-- The pattern fails at its end, and is found nowhere in the text. -/
theorem a_date_in_a_list_is_rendered_in_full :
    RendersInFull (store {} dated).2 spilling "%Y %" (store {} dated).1 ∧
      rendered (store {} dated).2 spilling "%Y %" (store {} dated).1 =
        "[a, [01 Jan 0001, ], b]" := by
  have hfree : dated.Free := by
    simp [dated, Datum.Free, Datum.FreeAll, Value.kind]
  obtain ⟨hbuilds, hin⟩ := builds_store {} dated hfree
  have hordered := hbuilds.ordered ordered_empty
  exact ⟨values_are_rendered_in_full spilling follows_spilling.writesUsual _ hordered.closed _ _ hin
    (hordered.wellFounded.apply _), by decide +kernel⟩

end Heap

end TemplateExpr
