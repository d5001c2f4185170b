/-
  ApiDocs.Package.Resolve

  From the name of a type, as written in documentation or in a field, to its declaration.
-/

import ApiDocs.Package.Session

namespace ApiDocs

/-- A declaration and the identifier of the package that it was found under. -/
structure Package.Resolved where
  decl : Source.TypeDecl
  package : String

namespace Session

/-- The declaration of a type in a package whose types have been collected. -/
def declaration? (w : Workspace) (name package : String) : SessionM (Option Source.TypeDecl) := do
  match ← symbolTable w package with
  | none => return none
  | some table => return table[name]?

/-- The package that a local import name stands for in a package. -/
def importedAs (w : Workspace) (reference qualifier package : String) : SessionM String := do
  match ← importMap w package with
  | none => throw (.modelNotFound reference package .noImports)
  | some imports =>
    match imports[qualifier]? with
    | some path => return path
    | none => throw (.modelNotFound reference package (.notImported qualifier imports.keys))

/-- The declaration that a reference names in the context of a package. A plain name is
looked up in that package. The segments before the last point are first read as a package's
path; only a single one may also be the local name of an import. -/
def findModel (w : Workspace) (reference package : String) : SessionM Package.Resolved := do
  let parts := Text.pieces '.' reference
  let typeName := parts.getLastD ""
  match parts.dropLast with
  | [] =>
    match ← declaration? w reference package with
    | some decl => return { decl, package }
    | none => throw (.modelNotFound reference package .undeclared)
  | qualifiers =>
    let absolute := "/".intercalate qualifiers
    match ← declaration? w typeName absolute with
    | some decl => return { decl, package := absolute }
    | none =>
      match qualifiers with
      | [qualifier] =>
        let imported ← importedAs w reference qualifier package
        match ← declaration? w typeName imported with
        | some decl => return { decl, package := imported }
        | none => throw (.modelNotFound reference package (.undeclaredIn typeName imported))
      | _ => throw (.modelNotFound reference package (.undeclaredAbsolute typeName absolute))

end Session
end ApiDocs
