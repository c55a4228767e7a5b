import QueryBuild.BuildUnit
import QueryBuild.Program.CppLiteral
import QueryBuild.Program.SqlLiteral
import QueryBuild.Query.Terminator
/-!
# Generated programs

The program of a unit opens a database in memory and copies the result of the unit's query into
the unit's output file. Everything that varies stands in it as a literal.
-/

namespace QueryBuild

structure Program where
  path : Path
  source : String
  output : Path
deriving DecidableEq, Inhabited

namespace Program

/-- The text in front of the unit's name. -/
def beforeUnit : String :=
  "// Generated by sqlbuild. Do not edit; regenerated on every compile.\n" ++
  "#include <duckdb.hpp>\n" ++
  "#include <iostream>\n" ++
  "#include <string>\n" ++
  "\n" ++
  "int main() \x7b\n" ++
  "    const char *unit = "

def beforeQuery : String :=
  ";\n" ++
  "\n" ++
  "    duckdb::DuckDB db(nullptr);\n" ++
  "    duckdb::Connection con(db);\n" ++
  "\n" ++
  "    const std::string query =\n" ++
  "        "

def beforeOutput : String :=
  ";\n" ++
  "\n" ++
  "    const std::string copy_sql =\n" ++
  "        \"COPY (\\n\" + query + \"\\n) TO \" + "

def afterOutput : String :=
  " + \" WITH (FORMAT CSV, HEADER)\";\n" ++
  "\n" ++
  "    auto result = con.Query(copy_sql);\n" ++
  "    if (result->HasError()) \x7b\n" ++
  "        std::cerr << unit << \": \" << result->GetError() << std::endl;\n" ++
  "        return 1;\n" ++
  "    \x7d\n" ++
  "    return 0;\n" ++
  "\x7d\n"

/-- The program of a unit with a text. -/
def render (u : BuildUnit) (sql : String) : Program where
  path := u.program
  source :=
    beforeUnit ++ CppLiteral.encode u.name ++
    beforeQuery ++ CppLiteral.encode (Query.stripTerminators sql) ++
    beforeOutput ++ CppLiteral.encode (SqlLiteral.encode u.output.text) ++
    afterOutput
  output := u.output

end Program

end QueryBuild
