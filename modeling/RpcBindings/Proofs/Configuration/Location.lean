import RpcBindings.Host
import RpcBindings.Proofs.Configuration.Validity
import RpcBindings.Proofs.File.Normal
import RpcBindings.Proofs.File.Fit

/-!
# RpcBindings.Proofs.Configuration.Location

Where the paths of settings lead.  A relative path that is located from a directory
is in normal form, and its text is located at the same place from everywhere; so
what is made of the paths of a command line, which are resolved, printed and located
again, does not depend on where the configuration is.  Locating a path and then
another one from there is locating both with a slash between them
(`locate_composes`).  All of this is about texts that can be handed to the system.
-/

namespace RpcBindings

/-- The text of a normal form is not blank. -/
theorem Path.IsNormal.trim_text_isEmpty {p : Path} (h : p.IsNormal) :
    (Text.trim p.text).isEmpty = false := by
  have hname : Text.IsName "/" := by decide
  rw [h.text_eq, hname.trim_append]
  simp

namespace Configuration

section

variable [Encoding] {base p : Path} {s a b : String}

/-- A relative text is resolved against the base. -/
theorem locate_of_relative (h : (Path.ofString s).isAbsolute = false) (base : Path) :
    locate base s = resolved base (Path.ofString s) := by
  rw [locate, h]
  rfl

/-- A path without a fault is resolved. -/
theorem resolved_of_fit {q : Path} (h : (base.join q).fault? = none) :
    resolved base q = .ok (base.resolve q) :=
  resolved_eq_ok_iff.2 ⟨h, rfl⟩

/-- A relative path is fit as seen from a directory if both are. -/
theorem fault?_join_ofString (hbase : base.fault? = none) (hs : ¬ Text.Unfit s)
    (hrelative : (Path.ofString s).isAbsolute = false) :
    (base.join (Path.ofString s)).fault? = none := by
  rw [← Option.not_isSome_iff_eq_none, Path.fault?_join_isSome_iff hrelative,
    Path.fault?_ofString_isSome_iff, hbase]
  simpa using hs

/-- A fit path stays fit when it is resolved. -/
theorem fault?_resolve {q : Path} (h : (base.join q).fault? = none) :
    (base.resolve q).fault? = none := by
  rw [← Option.not_isSome_iff_eq_none] at h ⊢
  exact fun hunfit => h (Path.fault?_isSome_of_collapse hunfit)

/-- A normal form is found where it is. -/
theorem locate_text (h : p.IsNormal) (base : Path) : locate base p.text = .ok p :=
  locate_of_read (Path.ofString_text h.proper) h.isAbsolute base

/-- A path that is printed in normal form is absolute already. -/
theorem absolute_text (h : p.IsNormal) (hfit : p.fault? = none) (here : Path) :
    Request.absolute here p.text = .ok p.text := by
  have hseen : (here.join p).fault? = none := by rwa [Path.join_of_isAbsolute h.isAbsolute]
  rw [Request.absolute, h.trim_text_isEmpty, if_neg Bool.false_ne_true,
    Path.ofString_text h.proper, resolved_of_fit hseen, h.resolve_eq]
  rfl

/-- One path located from the place of another leads where the two in one text lead. -/
theorem locate_resolve (ha : a ≠ "") (hahead : (Path.ofString a).isAbsolute = false)
    (hb : (Path.ofString b).isAbsolute = false)
    (hafit : (base.join (Path.ofString a)).fault? = none) (hbfit : ¬ Text.Unfit b) :
    ∃ q, locate (base.resolve (Path.ofString a)) b = .ok q ∧
      locate base (a ++ "/" ++ b) = .ok q := by
  have hread := Path.ofString_append ha hahead hb
  have hab : (Path.ofString (a ++ "/" ++ b)).isAbsolute = false := by
    rw [hread, Path.join_of_relative hb]
    exact hahead
  refine ⟨base.resolve (Path.ofString (a ++ "/" ++ b)), ?_, ?_⟩
  · rw [locate_of_relative hb, hread, ← Path.resolve_resolve]
    exact resolved_of_fit (fault?_join_ofString (fault?_resolve hafit) hbfit hb)
  · rw [locate_of_relative hab]
    refine resolved_of_fit ?_
    rw [hread, ← Path.join_assoc]
    exact fault?_join_ofString hafit hbfit hb

/-- **Locating gives a normal form, and it composes.**  From a directory, a relative text that is
not empty leads to a place in normal form: the one shortest form of the names of both.  The text of
that place leads there again, from everywhere, and stays as it is.  And another relative text leads
from there to where both lead from the directory, with a slash between them. -/
theorem locate_composes (hbase : base.IsPlace) (hbasefit : base.fault? = none) (ha : a ≠ "")
    (hahead : (Path.ofString a).isAbsolute = false) (hafit : ¬ Text.Unfit a)
    (hb : (Path.ofString b).isAbsolute = false) (hbfit : ¬ Text.Unfit b) :
    ∃ p, locate base a = .ok p ∧ p.IsNormal ∧
      Path.Reduces (base.parts ++ (Path.ofString a).parts) p.parts ∧
      (∀ here, here.resolve (Path.ofString p.text) = p ∧ locate here p.text = .ok p ∧
        Request.absolute here p.text = .ok p.text) ∧
      ∃ q, locate p b = .ok q ∧ locate base (a ++ "/" ++ b) = .ok q := by
  have hseen := fault?_join_ofString hbasefit hafit hahead
  have hnormal : (base.resolve (Path.ofString a)).IsNormal :=
    Path.isNormal_resolve hbase.proper (Path.isProper_ofString a)
  have hparts : (base.parts ++ (Path.ofString a).parts).foldl Path.follow [] =
      (base.resolve (Path.ofString a)).parts := by
    rw [Path.resolve, Path.join_of_relative hahead]
    rfl
  refine ⟨base.resolve (Path.ofString a), ?_, hnormal, (Path.reduces_iff.2 hparts).1,
    fun here => ⟨?_, ?_, ?_⟩, locate_resolve ha hahead hb hseen hbfit⟩
  · rw [locate_of_relative hahead, resolved_of_fit hseen]
  · rw [Path.ofString_text hnormal.proper, hnormal.resolve_eq]
  · exact locate_text hnormal here
  · exact absolute_text hnormal (fault?_resolve hseen) here

end

/-- A directory that is not in normal form. -/
def yard : Path := Path.ofString "/base/x/../y"

open scoped Host in
/-- A way from there that goes up and down, and another one that goes up over the root. -/
theorem yard_locate_composes :
    yard.IsPlace ∧ yard.fault? = none ∧ "../a//./b/" ≠ "" ∧
      (Path.ofString "../a//./b/").isAbsolute = false ∧ ¬ Text.Unfit "../a//./b/" ∧
      (Path.ofString "../../../../c").isAbsolute = false ∧ ¬ Text.Unfit "../../../../c" ∧
      (∃ p, locate yard "../a//./b/" = .ok p ∧ p.text = "/base/a/b" ∧ p.IsNormal ∧
        ∀ here, locate here "/base/a/b" = .ok p) ∧
      locate yard "../a//./b//../../../../c" = .ok (Path.ofString "/c") := by
  have hbase : yard.IsPlace := ⟨by decide, Path.isProper_ofString _⟩
  have hway : ¬ Text.Unfit "../a//./b/" := Text.not_unfit_of_ascii (by decide)
  have hother : ¬ Text.Unfit "../../../../c" := Text.not_unfit_of_ascii (by decide)
  obtain ⟨p, hlocate, hnormal, -, hsettled, -⟩ := locate_composes (b := "../../../../c") hbase
    (by decide) (by decide : "../a//./b/" ≠ "") (by decide) hway (by decide) hother
  have htext : p.text = "/base/a/b" := by
    cases hlocate
    rfl
  refine ⟨hbase, by decide, by decide, by decide, hway, by decide, hother,
    ⟨p, hlocate, htext, hnormal, fun here => ?_⟩, by decide⟩
  rw [← htext]
  exact (hsettled here).2.1

open scoped Host in
/-- A text with the character U+0000 is relative and not empty, but it leads nowhere. -/
theorem locate_null_leads_nowhere :
    yard.IsPlace ∧ "a\x00b" ≠ "" ∧ (Path.ofString "a\x00b").isAbsolute = false ∧
      ¬ ∃ p, locate yard "a\x00b" = .ok p := by
  refine ⟨⟨by decide, Path.isProper_ofString _⟩, by decide, by decide, ?_⟩
  rintro ⟨p, hp⟩
  cases hp

end Configuration

end RpcBindings
