import IntLang.Files.Library

/-!
# The standard headers

The headers every program can import without having them on disk: C++ text that defines the
functions of the language's small standard library.
-/

namespace IntLang.Headers

/-- Printing to and reading from the console. -/
def consoleHeader : Text :=
  Text.lines [
    "#include <iostream>",
    "",
    "template <typename T>",
    "inline void intc_print(const T& value) \x7b",
    "    std::cout << value;",
    "\x7d",
    "",
    "template <typename T>",
    "inline void intc_println(const T& value) \x7b",
    "    std::cout << value << '\\n';",
    "\x7d",
    "",
    "inline std::string intc_readline() \x7b",
    "    std::string line;",
    "    std::getline(std::cin, line);",
    "    return line;",
    "\x7d"]

/-- Arithmetic functions. -/
def arithmeticHeader : Text :=
  Text.lines [
    "#include <cmath>",
    "",
    "inline float intc_sqrt(float x) \x7b",
    "    return std::sqrt(x);",
    "\x7d",
    "",
    "inline float intc_pow(float base, float exp) \x7b",
    "    return std::pow(base, exp);",
    "\x7d",
    "",
    "inline float intc_abs(float x) \x7b",
    "    return std::fabs(x);",
    "\x7d",
    "",
    "inline int intc_mod(int a, int b) \x7b",
    "    return a % b;",
    "\x7d"]

/-- Strings, and numbers as strings. -/
def stringsHeader : Text :=
  Text.lines [
    "inline int intc_len(const std::string& s) \x7b",
    "    return static_cast<int>(s.size());",
    "\x7d",
    "",
    "inline std::string intc_itos(int value) \x7b",
    "    return std::to_string(value);",
    "\x7d",
    "",
    "inline std::string intc_rtos(float value) \x7b",
    "    return std::to_string(value);",
    "\x7d",
    "",
    "inline int intc_stoi(const std::string& s) \x7b",
    "    return std::stoi(s);",
    "\x7d"]

/-- The standard headers as a library of files. -/
def standard : Library where
  nodes := [("io.hpp", .file consoleHeader), ("math.hpp", .file arithmeticHeader),
    ("strings.hpp", .file stringsHeader)]

end IntLang.Headers
