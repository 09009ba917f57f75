/-!
# Directives

The words that mean something after `@`. Some take an argument list, some close a block, some do
neither.
-/

namespace Templating

inductive Directive where
  | extendsLayout
  | openSection
  | endSection
  | yieldSection
  | includeView
  | openIf
  | otherwise
  | endIf
  | openForeach
  | endForeach
  | openError
  | endError
  | csrf
  | asset
  | vite
deriving DecidableEq, Repr

namespace Directive

def all : List Directive :=
  [.extendsLayout, .openSection, .endSection, .yieldSection, .includeView, .openIf, .otherwise,
    .endIf, .openForeach, .endForeach, .openError, .endError, .csrf, .asset, .vite]

def word : Directive → String
  | .extendsLayout => "extends"
  | .openSection => "section"
  | .endSection => "endsection"
  | .yieldSection => "yield"
  | .includeView => "include"
  | .openIf => "if"
  | .otherwise => "else"
  | .endIf => "endif"
  | .openForeach => "foreach"
  | .endForeach => "endforeach"
  | .openError => "error"
  | .endError => "enderror"
  | .csrf => "csrf"
  | .asset => "asset"
  | .vite => "vite"

def name (d : Directive) : String :=
  "@" ++ d.word

def ofWord? (w : String) : Option Directive :=
  all.find? (·.word = w)

def takesArgs : Directive → Bool
  | .endSection | .otherwise | .endIf | .endForeach | .endError | .csrf => false
  | _ => true

theorem ofWord?_word (d : Directive) : ofWord? d.word = some d := by
  cases d <;> decide

theorem word_of_ofWord? {word : String} {kind : Directive} (h : ofWord? word = some kind) :
    kind.word = word := by
  unfold ofWord? at h
  simpa using List.find?_some h

end Directive

end Templating
