/-
  The scripts that a console runs.

  One asks the running program for the ancestors of every module that it has loaded.  The other
  runs over the source directories without loading anything and prints the declarations it finds;
  it keeps track of nesting by indentation.  The directories are written into that script as
  literals.
-/
import Lineage.Project
import Lineage.Text.Quoted

namespace Lineage.Script

/-- A script of these lines: it starts with a line end, and its last line has one. -/
def ofLines (lines : List String) : String := "\n" ++ "\n".intercalate lines ++ "\n"

/-- Prints the name and the ancestors of each loaded module. -/
def loadedModules : String := ofLines [
  "Rails.application.eager_load! if defined?(Rails) && Rails.respond_to?(:application)",
  "ObjectSpace.each_object(Module) do |mod|",
  "  name = mod.name",
  "  next if name.nil?",
  "  puts \"#\x7bname\x7d: #\x7bmod.ancestors.map(&:to_s).join(' ')\x7d\"",
  "end"]

/-- The part of the declaration script that does not depend on the project. -/
def scanRoots : List String := [
  "ROOTS.each do |root|",
  "  next unless File.directory?(root)",
  "  Find.find(root) do |path|",
  "    next unless path.end_with?('.rb')",
  "    scopes = []",
  "    File.foreach(path) do |line|",
  "      case line",
  "      when /^(\\s*)(class|module)\\s+(?:::)?([A-Z][\\w:]*)(?:\\s*<\\s*(?:::)?([A-Z][\\w:]*))?/",
  "        indent, keyword, name, superclass = $1.size, $2, $3, $4",
  "        name = \"#\x7bscopes.last[1]\x7d::#\x7bname\x7d\" unless scopes.empty?",
  "        superclass = nil if keyword == 'module'",
  "        puts [keyword, name, superclass].compact.join(' ')",
  "        scopes.push([indent, name]) unless line =~ /\\bend\\s*(#.*)?$/",
  "      when /^\\s*(include|prepend)\\s+((?:::)?[A-Z][\\w:]*(?:\\s*,\\s*(?:::)?[A-Z][\\w:]*)*)/",
  "        directive, list = $1, $2",
  "        next if scopes.empty?",
  "        modules = list.split(/\\s*,\\s*/).map \x7b |m| m.delete_prefix('::') \x7d",
  "        puts \"#\x7bdirective\x7d #\x7bscopes.last[1]\x7d #\x7bmodules.join(' ')\x7d\"",
  "      when /^(\\s*)end\\b/",
  "        scopes.pop if !scopes.empty? && scopes.last[0] == $1.size",
  "      end",
  "    end",
  "  end",
  "end"]

/-- Prints the declarations in the source directories of a project. -/
def declarations (project : Project) : String :=
  let roots := ", ".intercalate (project.sourceRoots.map Text.quote)
  ofLines (["require 'find'", "ROOTS = [" ++ roots ++ "]"] ++ scanRoots)

end Lineage.Script
